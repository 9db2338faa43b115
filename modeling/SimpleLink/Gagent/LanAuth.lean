import SimpleLink.Gagent.LanAccounting

/-!
# Who may give commands

A connection may bind, log in and ask for the description of the device. Everything else is
for connections that have logged in. The gateway keeps this in the flag `isLogin` of the
slot; `LanRun` keeps beside it which connections have really sent the passcode since they
were accepted.
-/

namespace SimpleLink.Gagent

open Lib

variable {g g' : Gateway} {i : Channel}

/-- The passcode field of a login, behind the command: its length in two bytes, then the passcode. -/
def carriesPasscode (rx passcode : List UInt8) : Bool :=
  let field := LAN_PROTOCOL_HEAD_LEN + mqttNumRemLenBytes (rx.drop 3) + LAN_PROTOCOL_FLAG_LEN +
    LAN_PROTOCOL_CMD_LEN
  (ntohsAt rx field).toNat = passcode.length &&
    (List.range passcode.length).all fun k => byteAt rx (field + 2 + k) = byteAt passcode k

/-- The client of slot `i` sends a login that carries the passcode. -/
def logsIn (g : Gateway) (op : LanOp) (i : Channel) : Bool :=
  match op with
  | .recv j rx => j = i ∧ g.hears i ∧ lanCmd rx = GAGENT_LAN_CMD_LOGIN ∧
      carriesPasscode rx g.wifipasscode = true
  | _ => false

/-- The gateway, and whether the connection of a slot has sent the passcode since it was accepted. -/
structure LanRun where
  gw : Gateway
  authed : Channel → Bool

def authedAfter (s : LanRun) (op : LanOp) (i : Channel) : Bool :=
  if (s.gw.tcpClient i).fd = INVALID_SOCKET ∨
      ((lanStep s.gw op).1.tcpClient i).fd = INVALID_SOCKET then false
  else s.authed i || logsIn s.gw op i

def authStep (s : LanRun) (op : LanOp) : Option (LanRun × List LanAct) :=
  some (⟨(lanStep s.gw op).1, authedAfter s op⟩, (lanStep s.gw op).2)

def authInit (status : UInt16) (passcode : List UInt8) (passcodeTimeout : UInt16) : LanRun :=
  ⟨gAgentLANInit status passcode passcodeTimeout, fun _ => false⟩

def LanAct.restricted? : LanAct → Option Channel
  | .heartbeat i _ => some i
  | .replyTest i _ => some i
  | .exitTest i => some i
  | .transmit i _ => some i
  | .relay i _ => some i
  | _ => none

/-- What is restricted is done for connections that have sent the passcode, and a new connection
starts without. -/
structure Authorised (s : LanRun) (op : LanOp) : Prop where
  acts : ∀ a ∈ (lanStep s.gw op).2, ∀ i, a.restricted? = some i → s.authed i = true
  fresh : ∀ i, (s.gw.tcpClient i).fd = INVALID_SOCKET →
    ((lanStep s.gw op).1.tcpClient i).fd ≠ INVALID_SOCKET →
    ((lanStep s.gw op).1.tcpClient i).isLogin = .fail

/-- A connection is accepted into a slot whose flag does not say that it is logged in, and the bytes
that a login is compared at are its passcode. -/
def AuthCond (s : LanRun) : LanOp → Prop
  | .accept newfd => s.gw.isSet WIFI_MODE_AP = false → 0 < newfd →
      ∀ i, s.gw.freeSlot = some i → (s.gw.tcpClient i).isLogin = .fail
  | .recv i rx => s.gw.hears i → lanCmd rx = GAGENT_LAN_CMD_LOGIN →
      passcodeMatches rx s.gw.wifipasscode = true → carriesPasscode rx s.gw.wifipasscode = true
  | _ => True

/-! ## What an event does to a slot -/

def KeptOrClosed (x y : TcpClient) : Prop :=
  y.fd = x.fd ∧ y.isLogin = x.isLogin ∨ y.fd = INVALID_SOCKET

theorem KeptOrClosed.refl (x : TcpClient) : KeptOrClosed x x := .inl ⟨rfl, rfl⟩

theorem KeptOrClosed.trans {x y z : TcpClient} (h : KeptOrClosed x y) (h' : KeptOrClosed y z) :
    KeptOrClosed x z := by
  rcases h' with ⟨hfd, hlogin⟩ | hclosed
  · rcases h with ⟨hfd', hlogin'⟩ | hclosed'
    · exact .inl ⟨hfd.trans hfd', hlogin.trans hlogin'⟩
    · exact .inr (hfd.trans hclosed')
  · exact .inr hclosed

def Calm (g g' : Gateway) : Prop := ∀ j, KeptOrClosed (g.tcpClient j) (g'.tcpClient j)

theorem Calm.refl (g : Gateway) : Calm g g := fun _ => .refl _

theorem Calm.trans {g'' : Gateway} (h : Calm g g') (h' : Calm g' g'') : Calm g g'' :=
  fun j => (h j).trans (h' j)

theorem calm_setClient {x : TcpClient} (h : KeptOrClosed (g.tcpClient i) x) :
    Calm g (g.setClient i x) := by
  intro j
  by_cases hj : j = i
  · subst hj
    rw [setClient_self]
    exact h
  · rw [setClient_ne x hj]
    exact .refl _

theorem calm_lanSetClientTimeOut (g : Gateway) (i : Channel) : Calm g (lanSetClientTimeOut g i) := by
  obtain ⟨t, ht⟩ := lanSetClientTimeOut_eq g i
  rw [ht]
  exact calm_setClient (.inl ⟨rfl, rfl⟩)

theorem clientGone_tcpClient (g : Gateway) : (clientGone g).tcpClient = g.tcpClient := by
  unfold clientGone
  split
  · simp only
    split <;> rfl
  · simp only
    split <;> rfl

theorem calm_clientGone (g : Gateway) : Calm g (clientGone g) := by
  intro j
  rw [clientGone_tcpClient]
  exact .refl _

theorem calm_lanTickClient (dTime : Nat) (g : Gateway) (i : Channel) :
    Calm g (lanTickClient dTime g i).1 := by
  unfold lanTickClient
  split
  · split
    · have hclosed : Calm g (g.setClient i { g.tcpClient i with fd := -1 }) :=
        calm_setClient (.inr rfl)
      simp only
      split
      · exact hclosed.trans (calm_clientGone _)
      · exact hclosed
    · exact calm_setClient (.inl ⟨rfl, rfl⟩)
  · exact .refl g

theorem calm_lanTickClients (dTime : Nat) (is : List Channel) :
    ∀ g : Gateway, Calm g (lanTickClients dTime g is).1 := by
  induction is with
  | nil => exact .refl
  | cons i is ih => exact fun g => (calm_lanTickClient dTime g i).trans (ih _)

theorem calm_gAgentLanTick (dTime : Nat) (g : Gateway) : Calm g (gAgentLanTick g dTime).1 := by
  have hpasscode : Calm g (passcodeTick g) := by
    intro j
    unfold passcodeTick
    split
    · simp only
      split
      · exact .refl _
      · exact .refl _
    · exact .refl _
  exact hpasscode.trans (calm_lanTickClients dTime _ _)

theorem calm_lanCheckAuthorization (g : Gateway) (i : Channel) :
    Calm g (lanCheckAuthorization g i).1 := by
  unfold lanCheckAuthorization
  split
  · exact calm_setClient (.inr rfl)
  · exact .refl g

theorem calm_lanHandlePasscode (g : Gateway) (i : Channel) : Calm g (lanHandlePasscode g i).1 := by
  unfold lanHandlePasscode
  split
  · exact .refl g
  · exact calm_setClient (.inr rfl)

theorem lanHandleLogin_slot (g : Gateway) (rx : List UInt8) (i j : Channel) :
    KeptOrClosed (g.tcpClient j) ((lanHandleLogin g rx i).1.tcpClient j) ∨
      j = i ∧ passcodeMatches rx g.wifipasscode = true ∧
        ((lanHandleLogin g rx i).1.tcpClient j).fd = (g.tcpClient j).fd := by
  unfold lanHandleLogin
  cases hok : passcodeMatches rx g.wifipasscode with
  | true =>
    simp only [if_true, reduceCtorEq, if_false]
    by_cases hj : j = i
    · subst hj
      rw [setClient_self]
      exact .inr ⟨rfl, trivial, rfl⟩
    · rw [setClient_ne _ hj]
      exact .inl (.refl _)
  | false =>
    simp only [Bool.false_eq_true, if_false, if_true, setClient_setClient]
    exact .inl (calm_setClient (.inr rfl) j)

/-- What is received from client `i` keeps or closes the connections, unless it logs in. -/
theorem lanDispatchTCPData_slot (g : Gateway) (rx : List UInt8) (i j : Channel) :
    KeptOrClosed (g.tcpClient j) ((lanDispatchTCPData g rx i).1.tcpClient j) ∨
      j = i ∧ lanCmd rx = GAGENT_LAN_CMD_LOGIN ∧ passcodeMatches rx g.wifipasscode = true ∧
        ((lanDispatchTCPData g rx i).1.tcpClient j).fd = (g.tcpClient j).fd := by
  by_cases hlogin : lanCmd rx = GAGENT_LAN_CMD_LOGIN
  · have he : lanDispatchTCPData g rx i = lanHandleLogin g rx i := by
      unfold lanDispatchTCPData isOpenCmd lanCommand
      simp only [hlogin]
      rfl
    rw [he]
    exact (lanHandleLogin_slot g rx i j).imp_right fun ⟨hj, hok, hfd⟩ => ⟨hj, hlogin, hok, hfd⟩
  · left
    by_cases hbind : lanCmd rx = GAGENT_LAN_CMD_BINDING
    · have he : lanDispatchTCPData g rx i = lanHandlePasscode g i := by
        unfold lanDispatchTCPData isOpenCmd lanCommand
        simp only [hbind]
        rfl
      rw [he]
      exact calm_lanHandlePasscode g i j
    · unfold lanDispatchTCPData
      split
      · rw [lanCommand_eq hlogin hbind]
        exact .refl _
      · have hauth := calm_lanCheckAuthorization g i j
        split
        · rename_i he
          rw [he] at hauth
          exact hauth
        · rename_i he
          rw [he] at hauth
          rw [lanCommand_eq hlogin hbind]
          exact hauth

/-- What an event does to a slot: the connection in it is kept or closed, it logs in, or a new one is
put into it. -/
theorem lanStep_slot (g : Gateway) (op : LanOp) (j : Channel) :
    KeptOrClosed (g.tcpClient j) ((lanStep g op).1.tcpClient j) ∨
      (∃ rx, op = .recv j rx ∧ g.hears j ∧ lanCmd rx = GAGENT_LAN_CMD_LOGIN ∧
        passcodeMatches rx g.wifipasscode = true ∧
        ((lanStep g op).1.tcpClient j).fd = (g.tcpClient j).fd) ∨
      ∃ newfd, op = .accept newfd ∧ g.isSet WIFI_MODE_AP = false ∧ 0 < newfd ∧
        g.freeSlot = some j ∧ ((lanStep g op).1.tcpClient j).isLogin = (g.tcpClient j).isLogin := by
  cases op with
  | accept newfd =>
    unfold lanStep lanTcpServerHandler
    simp only
    split
    · exact .inl (.refl _)
    rename_i hap
    split
    · rename_i hfd
      unfold lanAddTcpNewClient
      rw [if_neg (by omega)]
      cases hfree : g.freeSlot with
      | none => exact .inl (.refl _)
      | some i =>
        obtain ⟨t, ht⟩ := lanSetClientTimeOut_eq
          (g.setClient i { g.tcpClient i with fd := newfd }) i
        simp only [ht, setClient_self, setClient_setClient]
        by_cases hj : j = i
        · subst hj
          rw [setClient_self]
          exact .inr (.inr ⟨newfd, rfl, Bool.eq_false_iff.2 hap, hfd, rfl, rfl⟩)
        · rw [setClient_ne _ hj]
          exact .inl (.refl _)
    · exact .inl (.refl _)
  | recv i rx =>
    unfold lanStep
    simp only
    split
    · exact .inl (.refl _)
    · rename_i hn
      obtain ⟨hap, hfd⟩ := not_or.1 hn
      have hears : g.hears i := ⟨Bool.eq_false_iff.2 hap, Int.not_le.1 hfd⟩
      unfold lanTcpClientDataHandle
      split
      · split
        · left
          have hclosed : Calm g (g.setClient i ⟨INVALID_SOCKET, 0, .fail⟩) :=
            calm_setClient (.inr rfl)
          exact hclosed.trans (calm_clientGone _) j
        · exact .inl (.refl _)
      · have htime := calm_lanSetClientTimeOut g i
        obtain ⟨t, ht⟩ := lanSetClientTimeOut_eq g i
        rcases lanDispatchTCPData_slot (lanSetClientTimeOut g i) rx i j with
          hcalm | ⟨rfl, hlogin, hok, hfd'⟩
        · exact .inl ((htime j).trans hcalm)
        · refine .inr (.inl ⟨rx, rfl, hears, hlogin, ?_, ?_⟩)
          · rw [ht] at hok
            exact hok
          · rw [hfd', ht, setClient_self]
  | tick dTime => exact .inl (calm_gAgentLanTick dTime g j)
  | online buf =>
    left
    unfold lanStep mqttResOnlineClient
    simp only
    repeat' split
    all_goals exact .refl _
  | relay p0 => exact .inl (.refl _)
  | enableBind passcodeEnableTime => exact .inl (.refl _)

/-! ## What is done for a slot -/

theorem not_restricted_lanTickClients (dTime : Nat) (is : List Channel) :
    ∀ (g : Gateway), ∀ a ∈ (lanTickClients dTime g is).2, a.restricted? = none := by
  induction is with
  | nil => exact fun _ _ ha => absurd ha List.not_mem_nil
  | cons i is ih =>
    intro g a ha
    have ha : a ∈ (lanTickClient dTime g i).2 ++
        (lanTickClients dTime (lanTickClient dTime g i).1 is).2 := ha
    rcases List.mem_append.1 ha with hone | hrest
    · have hclose : a = .close i := by
        unfold lanTickClient at hone
        split at hone
        · split at hone
          · exact List.mem_singleton.1 hone
          · exact absurd hone List.not_mem_nil
        · exact absurd hone List.not_mem_nil
      rw [hclose]
      rfl
    · exact ih _ a hrest

theorem not_restricted_lanHandleLogin {rx : List UInt8} :
    ∀ a ∈ (lanHandleLogin g rx i).2, a.restricted? = none := by
  unfold lanHandleLogin
  generalize passcodeMatches rx g.wifipasscode = ok
  intro a ha
  cases ok with
  | true =>
    obtain rfl := List.mem_singleton.1 ha
    rfl
  | false =>
    rcases List.mem_pair.1 ha with rfl | rfl
    · rfl
    · rfl

theorem lanCommand_open {rx : List UInt8} (hopen : isOpenCmd (lanCmd rx) = true) :
    ∀ a ∈ (lanCommand g rx i).2, a.restricted? = none := by
  intro a ha
  unfold isOpenCmd at hopen
  simp only [Bool.or_eq_true, beq_iff_eq] at hopen
  unfold lanCommand at ha
  rcases hopen with (hcmd | hcmd) | hcmd
  · simp only [hcmd, if_true] at ha
    unfold lanHandlePasscode at ha
    split at ha
    · obtain rfl := List.mem_singleton.1 ha
      rfl
    · rcases List.mem_pair.1 ha with rfl | rfl
      · rfl
      · rfl
  · have he : a ∈ (lanHandleLogin g rx i).2 := by
      simp only [hcmd] at ha
      exact ha
    exact not_restricted_lanHandleLogin a he
  · have he : a ∈ gAgentLanSendDevInfo g i := by
      simp only [hcmd] at ha
      exact ha
    unfold gAgentLanSendDevInfo at he
    split at he
    · obtain rfl := List.mem_singleton.1 he
      rfl
    · exact absurd he List.not_mem_nil

/-- What a command of client `i` does is done for client `i`. -/
theorem lanCommand_restricted {rx : List UInt8} {a : LanAct} (ha : a ∈ (lanCommand g rx i).2)
    {j : Channel} (hj : a.restricted? = some j) : j = i := by
  by_cases hopen : isOpenCmd (lanCmd rx) = true
  · rw [lanCommand_open hopen a ha] at hj
    cases hj
  unfold isOpenCmd at hopen
  simp only [Bool.or_eq_true, beq_iff_eq, not_or] at hopen
  unfold lanCommand at ha
  simp only [hopen, if_false] at ha
  split at ha
  · split at ha
    · exact absurd ha List.not_mem_nil
    · obtain rfl := List.mem_singleton.1 ha
      exact (Option.some.inj hj).symm
  split at ha
  · obtain rfl := List.mem_singleton.1 ha
    exact (Option.some.inj hj).symm
  split at ha
  · unfold localAck2TcpClient at ha
    rcases List.mem_append.1 ha with hack | hexit
    · split at hack
      · obtain rfl := List.mem_singleton.1 hack
        exact (Option.some.inj hj).symm
      · exact absurd hack List.not_mem_nil
    · obtain rfl := List.mem_singleton.1 hexit
      exact (Option.some.inj hj).symm
  · exact absurd ha List.not_mem_nil

theorem lanStep_restricted {op : LanOp} {a : LanAct} (ha : a ∈ (lanStep g op).2)
    (hi : a.restricted? = some i) : (g.tcpClient i).LoggedIn := by
  cases op with
  | accept newfd =>
    have hdenied : a.restricted? = none := by
      unfold lanStep lanTcpServerHandler lanAddTcpNewClient at ha
      simp only at ha
      repeat' split at ha
      all_goals first
        | exact absurd ha List.not_mem_nil
        | (obtain rfl := List.mem_singleton.1 ha; rfl)
    rw [hdenied] at hi
    cases hi
  | recv j rx =>
    unfold lanStep at ha
    simp only at ha
    split at ha
    · exact absurd ha List.not_mem_nil
    rename_i hn
    have hfd : 0 < (g.tcpClient j).fd := Int.not_le.1 (not_or.1 hn).2
    unfold lanTcpClientDataHandle at ha
    rw [if_pos hfd] at ha
    split at ha
    · obtain rfl := List.mem_singleton.1 ha
      cases hi
    obtain ⟨t, ht⟩ := lanSetClientTimeOut_eq g j
    rw [ht] at ha
    unfold lanDispatchTCPData at ha
    split at ha
    · rename_i hopen
      rw [lanCommand_open hopen a ha] at hi
      cases hi
    · split at ha
      · rename_i he
        unfold lanCheckAuthorization at he
        split at he
        · obtain ⟨-, he⟩ := Prod.mk.inj he
          obtain ⟨rfl, -⟩ := Prod.mk.inj he
          obtain rfl := List.mem_singleton.1 ha
          cases hi
        · cases he
      · rename_i he
        obtain ⟨-, hflag⟩ := lanCheckAuthorization_true he
        obtain rfl := lanCommand_restricted ha hi
        rw [setClient_self] at hflag
        refine loggedIn_of_open hfd (hflag.resolve_right fun hneg => ?_)
        have hneg : (g.tcpClient i).fd = -1 := hneg
        omega
  | tick dTime =>
    rw [not_restricted_lanTickClients dTime _ _ a ha] at hi
    cases hi
  | online buf => exact absurd ha List.not_mem_nil
  | relay p0 =>
    obtain ⟨j, hmem, rfl⟩ := List.mem_map.1 ha
    cases hi
    have hsends := of_decide_eq_true (List.mem_filter.1 hmem).2
    exact loggedIn_of_open hsends.1 hsends.2
  | enableBind passcodeEnableTime => exact absurd ha List.not_mem_nil

/-! ## Runs -/

/-- The flag of an open connection says no more than that it has sent the passcode. -/
def AuthInv (s : LanRun) : Prop := ∀ i, (s.gw.tcpClient i).LoggedIn → s.authed i = true

theorem authInv_init (status : UInt16) (passcode : List UInt8) (passcodeTimeout : UInt16) :
    AuthInv (authInit status passcode passcodeTimeout) :=
  fun _ h => absurd h (not_loggedIn_of_closed rfl)

theorem AuthInv.authorised {s : LanRun} (h : AuthInv s) {op : LanOp} (hc : AuthCond s op) :
    Authorised s op where
  acts _ ha i hi := h i (lanStep_restricted ha hi)
  fresh i hfree hopen := by
    rcases lanStep_slot s.gw op i with (⟨hfd, -⟩ | hclosed) | ⟨rx, rfl, hears, -⟩ |
      ⟨newfd, rfl, hap, hpos, hslot, hlogin⟩
    · exact absurd (hfd.trans hfree) hopen
    · exact absurd hclosed hopen
    · have hpos := hears.2
      rw [hfree] at hpos
      exact absurd hpos (by decide)
    · rw [hlogin]
      exact hc hap hpos i hslot

theorem AuthInv.step {s s' : LanRun} {op : LanOp} {acts : List LanAct} (h : AuthInv s)
    (hc : AuthCond s op) (hs : authStep s op = some (s', acts)) : AuthInv s' := by
  cases hs
  intro i hin
  show authedAfter s op i = true
  have hopen : ((lanStep s.gw op).1.tcpClient i).fd ≠ INVALID_SOCKET := hin.1
  have hflag : ((lanStep s.gw op).1.tcpClient i).isLogin = .success := hin.2
  unfold authedAfter
  rcases lanStep_slot s.gw op i with (⟨hfd, hlogin⟩ | hclosed) | ⟨rx, rfl, hears, hcmd, hok, hfd⟩ |
    ⟨newfd, rfl, hap, hpos, hslot, hlogin⟩
  · have hbefore : (s.gw.tcpClient i).LoggedIn := ⟨hfd ▸ hopen, hlogin ▸ hflag⟩
    rw [if_neg (not_or.2 ⟨hbefore.1, hopen⟩), h i hbefore]
    rfl
  · exact absurd hclosed hopen
  · rw [if_neg (not_or.2 ⟨hfd ▸ hopen, hopen⟩), Bool.or_eq_true]
    exact .inr (decide_eq_true ⟨rfl, hears, hcmd, hc hears hcmd hok⟩)
  · rw [hlogin, hc hap hpos i hslot] at hflag
    cases hflag

/-- In a run whose events meet the condition, every event is handled for connections that have sent
the passcode. -/
theorem lan_commands_authorised (status : UInt16) (passcode : List UInt8)
    (passcodeTimeout : UInt16) {ops : List LanOp}
    (hc : Meets authStep AuthCond (authInit status passcode passcodeTimeout) ops) :
    Meets authStep Authorised (authInit status passcode passcodeTimeout) ops :=
  hc.imp (I := AuthInv) (fun hI hC => hI.authorised hC) (fun hI hC hs => hI.step hC hs)
    (authInv_init status passcode passcodeTimeout)

/-- A client connects, logs in and gives a command for the MCU. -/
theorem lan_commands_authorised_one :
    Meets authStep Authorised (authInit WIFI_MODE_STATION [0x61] 0)
      [.accept 5, .recv 0 loginA, .recv 0 [0, 0, 0, 3, 4, 0, 0, 0x90, 7]] := by
  refine lan_commands_authorised WIFI_MODE_STATION [0x61] 0 ?_
  exact ⟨fun _ _ => by decide, fun _ _ _ => by decide,
    fun _ h => absurd h (by decide), trivial⟩

/-- A client that has logged in falls silent and is timed out; the next one gives a command for the
MCU without a login. -/
theorem command_without_login :
    ∃ s acts, runs authStep (authInit WIFI_MODE_STATION [0x61] 0)
      [.accept 5, .recv 0 loginA, .tick 14, .accept 6] = some (s, acts) ∧
      s.authed 0 = false ∧
      (lanStep s.gw (.recv 0 [0, 0, 0, 3, 4, 0, 0, 0x90, 7])).2 = [.transmit 0 [7]] ∧
      ¬Authorised s (.recv 0 [0, 0, 0, 3, 4, 0, 0, 0x90, 7]) := by
  refine ⟨_, _, rfl, by decide, by decide, fun h => ?_⟩
  exact absurd (h.acts (.transmit 0 [7]) (by decide) 0 rfl) (by decide)

end SimpleLink.Gagent
