import SimpleLink.Lib.Flags
import SimpleLink.Lib.Run
import SimpleLink.Lib.Slots
import SimpleLink.Gagent.LanTcp

/-!
# The count of the TCP clients

`Accounted` is what `tcpClientNums` and `WIFI_CLIENT_ON` stand for: the connections that are
logged in, and whether there is a client at all, in the own network or in the cloud. The
handlers keep it unless they count a connection that is not logged in, or one that is
already. `AccountCond` says that they do not.
-/

namespace SimpleLink.Gagent

open Lib

variable {g g' : Gateway} {i : Channel}

def TcpClient.LoggedIn (x : TcpClient) : Prop := x.fd ≠ INVALID_SOCKET ∧ x.isLogin = .success

instance (x : TcpClient) : Decidable x.LoggedIn := inferInstanceAs (Decidable (_ ∧ _))

def Gateway.lanClients (g : Gateway) : Nat := tally TcpClient.LoggedIn g.tcpClient

/-- The counter and the status bit say how many clients there are. -/
structure Accounted (g : Gateway) : Prop where
  count : g.tcpClientNums = g.lanClients
  status : g.isSet WIFI_CLIENT_ON = true ↔ 0 < g.tcpClientNums + g.wanclientNum.toNat

/-- Whether the gateway handles what is received from client `i`. -/
def Gateway.hears (g : Gateway) (i : Channel) : Prop :=
  g.isSet WIFI_MODE_AP = false ∧ 0 < (g.tcpClient i).fd

instance (g : Gateway) (i : Channel) : Decidable (g.hears i) := inferInstanceAs (Decidable (_ ∧ _))

/-- A connection is accepted into a slot whose flag does not say that it is logged in. A client that
closes was logged in, or nobody is. A client logs in that was not logged in, and one that is refused
to bind is not. -/
def AccountCond (g : Gateway) : LanOp → Prop
  | .accept newfd => g.isSet WIFI_MODE_AP = false → 0 < newfd →
      ∀ i, g.freeSlot = some i → (g.tcpClient i).isLogin = .fail
  | .recv i rx => g.hears i →
      if rx = [] then (g.tcpClient i).isLogin = .success ∨ g.tcpClientNums = 0
      else if lanCmd rx = GAGENT_LAN_CMD_LOGIN then (g.tcpClient i).isLogin = .fail
      else if lanCmd rx = GAGENT_LAN_CMD_BINDING then
        g.isSet WIFI_MODE_BINDING = true ∨ (g.tcpClient i).isLogin = .fail
      else True
  | _ => True

/-! ## The status word -/

theorem isSet_setWiFiStatus {m : UInt16} (hm : m ≠ 0) (b : Bool) :
    (setWiFiStatus g m b).isSet m = b := by
  unfold setWiFiStatus Gateway.isSet
  cases b with
  | true => exact decide_eq_true (or_mask_and_mask _ _)
  | false =>
    refine decide_eq_false fun h => hm ?_
    rw [← h]
    exact clear_mask_and_mask _ _

theorem isSet_setWiFiStatus_other {m m' : UInt16} (hm : m &&& m' = 0) (b : Bool) :
    (setWiFiStatus g m b).isSet m' = g.isSet m' := by
  unfold setWiFiStatus Gateway.isSet
  cases b with
  | true => exact congrArg (fun s => decide (s = m')) (or_mask_and_other _ hm)
  | false => exact congrArg (fun s => decide (s = m')) (clear_mask_and_other _ hm)

/-! ## Writing a slot -/

@[simp]
theorem setClient_tcpClientNums (x : TcpClient) :
    (g.setClient i x).tcpClientNums = g.tcpClientNums := rfl

@[simp]
theorem setClient_wanclientNum (x : TcpClient) :
    (g.setClient i x).wanclientNum = g.wanclientNum := rfl

@[simp]
theorem setClient_isSet (x : TcpClient) (m : UInt16) :
    (g.setClient i x).isSet m = g.isSet m := rfl

@[simp]
theorem setClient_self (x : TcpClient) : (g.setClient i x).tcpClient i = x :=
  Function.update_self ..

theorem setClient_ne (x : TcpClient) {j : Channel} (h : j ≠ i) :
    (g.setClient i x).tcpClient j = g.tcpClient j := Function.update_of_ne h ..

/-- `g'` differs from `g` in what does not count. -/
structure SameCount (g g' : Gateway) : Prop where
  clients : g'.lanClients = g.lanClients
  nums : g'.tcpClientNums = g.tcpClientNums
  wan : g'.wanclientNum = g.wanclientNum
  status : g'.isSet WIFI_CLIENT_ON = g.isSet WIFI_CLIENT_ON

theorem SameCount.refl (g : Gateway) : SameCount g g := ⟨rfl, rfl, rfl, rfl⟩

theorem SameCount.accounted (h : SameCount g g') (ha : Accounted g) : Accounted g' where
  count := by rw [h.nums, h.clients, ha.count]
  status := by rw [h.status, h.nums, h.wan, ha.status]

theorem sameCount_setClient {x : TcpClient} (h : x.LoggedIn ↔ (g.tcpClient i).LoggedIn) :
    SameCount g (g.setClient i x) := ⟨tally_update_same h, rfl, rfl, rfl⟩

/-- A flag other than `WIFI_CLIENT_ON` does not count. -/
theorem sameCount_setWiFiStatus {m : UInt16} (hm : m &&& WIFI_CLIENT_ON = 0) (b : Bool) :
    SameCount g (setWiFiStatus g m b) := ⟨rfl, rfl, rfl, isSet_setWiFiStatus_other hm b⟩

theorem not_loggedIn_of_fail {x : TcpClient} (h : x.isLogin = .fail) : ¬x.LoggedIn := by
  rintro ⟨-, hs⟩
  rw [h] at hs
  cases hs

theorem not_loggedIn_of_closed {x : TcpClient} (h : x.fd = -1) : ¬x.LoggedIn := fun ⟨hfd, _⟩ => hfd h

theorem loggedIn_of_open {x : TcpClient} (hfd : 0 < x.fd) (h : x.isLogin = .success) :
    x.LoggedIn := by
  refine ⟨fun he => ?_, h⟩
  rw [he] at hfd
  exact absurd hfd (by decide)

theorem sameCount_close {x : TcpClient} (hx : x.fd = -1) (hi : (g.tcpClient i).isLogin = .fail) :
    SameCount g (g.setClient i x) :=
  sameCount_setClient (iff_of_false (not_loggedIn_of_closed hx) (not_loggedIn_of_fail hi))

/-! ## Clients come and go -/

theorem Accounted.nums_nonneg (h : Accounted g) : 0 ≤ g.tcpClientNums := by
  rw [h.count]
  exact Int.natCast_nonneg _

theorem Accounted.gone (h : Accounted g) {x : TcpClient} (hi : (g.tcpClient i).LoggedIn)
    (hx : ¬x.LoggedIn) : Accounted (clientGone (g.setClient i x)) := by
  have hclients : (g.setClient i x).lanClients + 1 = g.lanClients := tally_update_off hx hi
  have hcount := h.count
  have hpos : g.tcpClientNums > 0 := by omega
  unfold clientGone
  simp only [setClient_tcpClientNums, hpos, if_true, setClient_wanclientNum]
  have hset : g.isSet WIFI_CLIENT_ON = true := h.status.2 (by omega)
  split
  · rename_i hzero
    refine ⟨?_, ?_⟩
    · show g.tcpClientNums - 1 = ((g.setClient i x).lanClients : Int)
      omega
    · rw [isSet_setWiFiStatus (by decide)]
      show false = true ↔ 0 < g.tcpClientNums - 1 + (g.wanclientNum.toNat : Int)
      rw [← hzero]
      simp
  · rename_i hne
    refine ⟨?_, ?_⟩
    · show g.tcpClientNums - 1 = ((g.setClient i x).lanClients : Int)
      omega
    · show g.isSet WIFI_CLIENT_ON = true ↔ 0 < g.tcpClientNums - 1 + (g.wanclientNum.toNat : Int)
      exact iff_of_true hset (by omega)

theorem Accounted.goneUncounted (h : Accounted g) {x : TcpClient} (hi : ¬(g.tcpClient i).LoggedIn)
    (hx : ¬x.LoggedIn) (hzero : g.tcpClientNums = 0) :
    Accounted (clientGone (g.setClient i x)) := by
  have hsame : SameCount g (g.setClient i x) := sameCount_setClient (iff_of_false hx hi)
  have hacc := hsame.accounted h
  unfold clientGone
  simp only [setClient_tcpClientNums, hzero, gt_iff_lt, Int.lt_irrefl, if_false]
  split
  · rename_i hwan
    rw [setClient_wanclientNum] at hwan
    refine ⟨hacc.count, ?_⟩
    rw [isSet_setWiFiStatus (by decide)]
    show false = true ↔ 0 < g.tcpClientNums + (g.wanclientNum.toNat : Int)
    simp only [Bool.false_eq_true, false_iff]
    omega
  · exact hacc

theorem lanClients_le (g : Gateway) : g.lanClients ≤ 8 := tally_le _

theorem Accounted.comes (h : Accounted g) {x : TcpClient} (hi : ¬(g.tcpClient i).LoggedIn)
    (hx : x.LoggedIn) :
    Accounted ((setWiFiStatus { g with tcpClientNums := int32 (g.tcpClientNums + 1) }
      WIFI_CLIENT_ON true).setClient i x) := by
  have hclients : tally TcpClient.LoggedIn (Function.update g.tcpClient i x) = g.lanClients + 1 :=
    tally_update_on hx hi
  have hle := lanClients_le g
  have hnums : int32 (g.tcpClientNums + 1) = g.tcpClientNums + 1 := by
    have hcount := h.count
    unfold int32
    rw [Int.bmod_eq_of_le] <;> omega
  refine ⟨?_, ?_⟩
  · show int32 (g.tcpClientNums + 1) = (tally TcpClient.LoggedIn (Function.update g.tcpClient i x) : Nat)
    rw [hnums, hclients, h.count]
    rfl
  · show (setWiFiStatus _ _ _).isSet _ = true ↔ 0 < int32 (g.tcpClientNums + 1) + (g.wanclientNum.toNat : Int)
    rw [isSet_setWiFiStatus (by decide), hnums]
    have hpos := h.nums_nonneg
    exact iff_of_true rfl (by omega)

/-! ## The handlers -/

theorem setClient_eta : g.setClient i (g.tcpClient i) = g := by
  unfold Gateway.setClient
  rw [Function.update_eq_self]

theorem setClient_setClient (x y : TcpClient) :
    (g.setClient i x).setClient i y = g.setClient i y := by
  unfold Gateway.setClient
  simp only [Function.update_idem]

theorem lanSetClientTimeOut_eq (g : Gateway) (i : Channel) :
    ∃ t, lanSetClientTimeOut g i = g.setClient i { g.tcpClient i with timeout := t } := by
  unfold lanSetClientTimeOut
  cases hap : g.isSet WIFI_MODE_AP with
  | true =>
    simp only [if_true, setClient_isSet]
    split
    · exact ⟨_, by rw [setClient_setClient, setClient_self]⟩
    · exact ⟨_, rfl⟩
  | false =>
    simp only [Bool.false_eq_true, if_false]
    split
    · exact ⟨_, rfl⟩
    · exact ⟨(g.tcpClient i).timeout, setClient_eta.symm⟩

theorem sameCount_timeout (t : Nat) :
    SameCount g (g.setClient i { g.tcpClient i with timeout := t }) := sameCount_setClient Iff.rfl

theorem freeSlot_fd (h : g.freeSlot = some i) : (g.tcpClient i).fd = -1 := by
  show (g.tcpClient i).fd = INVALID_SOCKET
  simpa using List.find?_some h

theorem Accounted.accept (h : Accounted g) {fd : Int} (hfd : 0 < fd)
    (hc : ∀ i, g.freeSlot = some i → (g.tcpClient i).isLogin = .fail) :
    Accounted (lanAddTcpNewClient g fd).1 := by
  unfold lanAddTcpNewClient
  rw [if_neg (by omega)]
  cases hfree : g.freeSlot with
  | none => exact h
  | some i =>
    obtain ⟨t, ht⟩ := lanSetClientTimeOut_eq (g.setClient i { g.tcpClient i with fd }) i
    simp only [ht, setClient_self, setClient_setClient]
    have hfail : (⟨fd, t, (g.tcpClient i).isLogin⟩ : TcpClient).isLogin = .fail := hc i hfree
    exact (sameCount_setClient (iff_of_false (not_loggedIn_of_fail hfail)
      (not_loggedIn_of_closed (freeSlot_fd hfree)))).accounted h

theorem Accounted.login (h : Accounted g) (rx : List UInt8)
    (hc : (g.tcpClient i).isLogin = .fail) (hopen : 0 < (g.tcpClient i).fd) :
    Accounted (lanHandleLogin g rx i).1 := by
  unfold lanHandleLogin
  cases hok : passcodeMatches rx g.wifipasscode with
  | true =>
    simp only [if_true, reduceCtorEq, if_false]
    exact h.comes (not_loggedIn_of_fail hc) (loggedIn_of_open hopen rfl)
  | false =>
    simp only [Bool.false_eq_true, if_false, if_true, setClient_self, setClient_setClient]
    exact (sameCount_close rfl hc).accounted h

theorem Accounted.passcode (h : Accounted g)
    (hc : g.isSet WIFI_MODE_BINDING = true ∨ (g.tcpClient i).isLogin = .fail) :
    Accounted (lanHandlePasscode g i).1 := by
  unfold lanHandlePasscode
  split
  · exact h
  · rename_i hbind
    exact (sameCount_close rfl (hc.resolve_left hbind)).accounted h

theorem Accounted.authorization (h : Accounted g) : Accounted (lanCheckAuthorization g i).1 := by
  unfold lanCheckAuthorization
  split
  · rename_i hc
    exact (sameCount_close rfl hc.1).accounted h
  · exact h

theorem lanCheckAuthorization_true {acts : List LanAct}
    (h : lanCheckAuthorization g i = (g', acts, true)) : g' = g ∧
      ((g.tcpClient i).isLogin = .success ∨ (g.tcpClient i).fd = -1) := by
  unfold lanCheckAuthorization at h
  split at h
  · cases h
  · rename_i hc
    obtain ⟨rfl, -⟩ := Prod.mk.inj h
    refine ⟨rfl, ?_⟩
    cases hl : (g.tcpClient i).isLogin with
    | success => exact .inl rfl
    | fail => exact .inr (by simpa [hl, INVALID_SOCKET] using hc)

theorem lanCommand_eq {rx : List UInt8} (hlogin : lanCmd rx ≠ GAGENT_LAN_CMD_LOGIN)
    (hbind : lanCmd rx ≠ GAGENT_LAN_CMD_BINDING) : (lanCommand g rx i).1 = g := by
  unfold lanCommand
  simp only [hlogin, hbind, if_false]
  repeat' split
  all_goals rfl

theorem Accounted.command (h : Accounted g) {rx : List UInt8} (hopen : 0 < (g.tcpClient i).fd)
    (hc : if lanCmd rx = GAGENT_LAN_CMD_LOGIN then (g.tcpClient i).isLogin = .fail
      else if lanCmd rx = GAGENT_LAN_CMD_BINDING then
        g.isSet WIFI_MODE_BINDING = true ∨ (g.tcpClient i).isLogin = .fail
      else True) : Accounted (lanCommand g rx i).1 := by
  by_cases hlogin : lanCmd rx = GAGENT_LAN_CMD_LOGIN
  · rw [if_pos hlogin] at hc
    unfold lanCommand
    simp only [hlogin]
    exact h.login rx hc hopen
  by_cases hbind : lanCmd rx = GAGENT_LAN_CMD_BINDING
  · rw [if_neg hlogin, if_pos hbind] at hc
    unfold lanCommand
    simp only [hbind, if_true]
    exact h.passcode hc
  · rw [lanCommand_eq hlogin hbind]
    exact h

theorem Accounted.dispatch (h : Accounted g) {rx : List UInt8} (hopen : 0 < (g.tcpClient i).fd)
    (hc : if lanCmd rx = GAGENT_LAN_CMD_LOGIN then (g.tcpClient i).isLogin = .fail
      else if lanCmd rx = GAGENT_LAN_CMD_BINDING then
        g.isSet WIFI_MODE_BINDING = true ∨ (g.tcpClient i).isLogin = .fail
      else True) : Accounted (lanDispatchTCPData g rx i).1 := by
  unfold lanDispatchTCPData
  split
  · exact h.command hopen hc
  · have hauth := h.authorization (i := i)
    split
    · rename_i he
      rw [he] at hauth
      exact hauth
    · rename_i he
      obtain ⟨rfl, -⟩ := lanCheckAuthorization_true he
      exact h.command hopen hc

theorem Accounted.data (h : Accounted g) {rx : List UInt8} (hears : g.hears i)
    (hc : AccountCond g (.recv i rx)) : Accounted (lanTcpClientDataHandle g i rx).1 := by
  have hc := hc hears
  have hopen := hears.2
  unfold lanTcpClientDataHandle
  by_cases hrx : rx = []
  · rw [if_pos hrx] at hc
    simp only [hrx, if_true, gt_iff_lt, hopen]
    have hx : ¬(⟨INVALID_SOCKET, 0, .fail⟩ : TcpClient).LoggedIn := not_loggedIn_of_fail rfl
    by_cases hl : (g.tcpClient i).isLogin = .success
    · exact h.gone (loggedIn_of_open hopen hl) hx
    · exact h.goneUncounted (fun hin => hl hin.2) hx (hc.resolve_left hl)
  · rw [if_neg hrx] at hc
    rw [if_neg hrx]
    obtain ⟨t, ht⟩ := lanSetClientTimeOut_eq g i
    rw [ht]
    apply ((sameCount_timeout t).accounted h).dispatch
    · simpa only [setClient_self] using hopen
    · simpa only [setClient_self, setClient_isSet] using hc

theorem Accounted.tickClient (h : Accounted g) (dTime : Nat) :
    Accounted (lanTickClient dTime g i).1 := by
  unfold lanTickClient
  split
  · rename_i hopen
    split
    · cases hl : (g.tcpClient i).isLogin with
      | success => exact h.gone (loggedIn_of_open hopen hl) (not_loggedIn_of_closed rfl)
      | fail => exact (sameCount_close rfl hl).accounted h
    · exact (sameCount_timeout _).accounted h
  · exact h

theorem Accounted.tickClients (dTime : Nat) (is : List Channel) :
    ∀ {g : Gateway}, Accounted g → Accounted (lanTickClients dTime g is).1 := by
  induction is with
  | nil => exact id
  | cons i is ih => exact fun h => ih (h.tickClient dTime)

theorem sameCount_passcodeTick (g : Gateway) : SameCount g (passcodeTick g) := by
  unfold passcodeTick
  split
  · simp only
    split
    · exact ⟨rfl, rfl, rfl, isSet_setWiFiStatus_other (by decide) _⟩
    · exact ⟨rfl, rfl, rfl, rfl⟩
  · exact .refl g

theorem Accounted.online (h : Accounted g) (buf : List UInt8) :
    Accounted (mqttResOnlineClient g buf) := by
  have hnums : 0 ≤ g.tcpClientNums := h.nums_nonneg
  have hle := lanClients_le g
  have hcount := h.count
  have hlan : (UInt16.ofInt g.tcpClientNums).toNat = g.lanClients := by
    rw [hcount]
    show (UInt16.ofInt (g.lanClients : Int)).toNat = _
    simp [UInt16.ofInt]
    omega
  unfold mqttResOnlineClient
  simp only
  split
  · rename_i hwan
    refine ⟨hcount, ?_⟩
    rw [isSet_setWiFiStatus (by decide)]
    have hpos : 0 < (ntohsAt buf 6).toNat :=
      Nat.pos_of_ne_zero fun hz => hwan (UInt16.toNat_inj.1 hz)
    show true = true ↔ 0 < g.tcpClientNums + ((ntohsAt buf 6).toNat : Int)
    exact iff_of_true rfl (by omega)
  · rename_i hwan
    have hwan : (ntohsAt buf 6).toNat = 0 := by rw [Decidable.not_not.1 hwan]; rfl
    split
    · rename_i hzero
      refine ⟨hcount, ?_⟩
      rw [isSet_setWiFiStatus (by decide)]
      show false = true ↔ 0 < g.tcpClientNums + ((ntohsAt buf 6).toNat : Int)
      exact iff_of_false nofun (by omega)
    · rename_i hne
      refine ⟨hcount, ?_⟩
      show g.isSet WIFI_CLIENT_ON = true ↔ 0 < g.tcpClientNums + ((ntohsAt buf 6).toNat : Int)
      exact iff_of_true (h.status.2 (by omega)) (by omega)

/-! ## Runs -/

theorem Accounted.step (h : Accounted g) {op : LanOp} (hc : AccountCond g op) :
    Accounted (lanStep g op).1 := by
  cases op with
  | accept newfd =>
    unfold lanStep lanTcpServerHandler
    simp only
    split
    · exact h
    · rename_i hap
      split
      · rename_i hfd
        exact h.accept hfd (hc (Bool.eq_false_iff.2 hap) hfd)
      · exact h
  | recv i rx =>
    unfold lanStep
    simp only
    split
    · exact h
    · rename_i hn
      obtain ⟨hap, hfd⟩ := not_or.1 hn
      exact h.data ⟨Bool.eq_false_iff.2 hap, Int.not_le.1 hfd⟩ hc
  | tick dTime => exact Accounted.tickClients dTime _ ((sameCount_passcodeTick g).accounted h)
  | online buf => exact h.online buf
  | relay p0 => exact h
  | enableBind passcodeEnableTime =>
    have hsame := sameCount_setWiFiStatus
      (g := { g with passcodeTimeout := passcodeEnableTime }) (m := WIFI_MODE_BINDING)
      (by decide) true
    exact hsame.accounted ⟨h.count, h.status⟩

theorem accounted_init (status : UInt16) (passcode : List UInt8) (passcodeTimeout : UInt16) :
    Accounted (gAgentLANInit status passcode passcodeTimeout) where
  count := by
    have hnone : tally TcpClient.LoggedIn (fun _ : Channel => (⟨-1, 0, .fail⟩ : TcpClient)) = 0 :=
      tally_none fun _ => not_loggedIn_of_closed rfl
    show (0 : Int) = (tally TcpClient.LoggedIn _ : Nat)
    rw [show (gAgentLANInit status passcode passcodeTimeout).tcpClient = fun _ => ⟨-1, 0, .fail⟩
      from rfl, hnone]
    rfl
  status := by
    unfold gAgentLANInit
    rw [isSet_setWiFiStatus (by decide)]
    exact iff_of_false nofun (Int.lt_irrefl 0)

def lanRunStep (g : Gateway) (op : LanOp) : Option (Gateway × List LanAct) := some (lanStep g op)

/-- The counter and the status bit are right in every state of a run whose events meet the
condition. -/
theorem lan_clients_accounted (status : UInt16) (passcode : List UInt8) (passcodeTimeout : UInt16)
    {ops : List LanOp} {acts : List (List LanAct)}
    (hc : Meets lanRunStep AccountCond (gAgentLANInit status passcode passcodeTimeout) ops)
    (hr : runs lanRunStep (gAgentLANInit status passcode passcodeTimeout) ops = some (g, acts)) :
    Accounted g := by
  refine Meets.preserves (I := Accounted) (fun h hc he => ?_) (accounted_init ..) hc hr
  obtain ⟨rfl, -⟩ := Prod.mk.inj (Option.some.inj he)
  exact h.step hc

def loginA : List UInt8 := [0, 0, 0, 3, 6, 0, 0, 8, 0, 1, 0x61]

/-- A client connects, logs in, has its heartbeat answered and closes. -/
theorem lan_clients_accounted_one :
    ∃ g acts, runs lanRunStep (gAgentLANInit WIFI_MODE_STATION [0x61] 0)
      [.accept 5, .recv 0 loginA, .recv 0 [0, 0, 0, 3, 3, 0, 0, 0x15], .recv 0 []] =
        some (g, acts) ∧ Accounted g := by
  have hmeets : Meets lanRunStep AccountCond (gAgentLANInit WIFI_MODE_STATION [0x61] 0)
      [.accept 5, .recv 0 loginA, .recv 0 [0, 0, 0, 3, 3, 0, 0, 0x15], .recv 0 []] :=
    ⟨fun _ _ => by decide, fun _ => by decide, fun _ => by decide, fun _ => .inl (by decide),
      trivial⟩
  exact ⟨_, _, rfl, lan_clients_accounted WIFI_MODE_STATION [0x61] 0 hmeets rfl⟩

/-- A client that logs in twice is counted twice. -/
theorem second_login_counted :
    ∃ g acts, runs lanRunStep (gAgentLANInit WIFI_MODE_STATION [0x61] 0)
      [.accept 5, .recv 0 loginA, .recv 0 loginA] = some (g, acts) ∧
      g.tcpClientNums = 2 ∧ g.lanClients = 1 ∧ ¬Accounted g := by
  refine ⟨_, _, rfl, by decide, by decide, fun h => ?_⟩
  exact absurd h.count (by decide)

end SimpleLink.Gagent
