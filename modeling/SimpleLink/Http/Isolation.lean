import SimpleLink.Http.Kept
import SimpleLink.Http.Progress
import SimpleLink.Lib.Run

/-!
# Requests on several connections (`RunHttpServer`)

The server takes a packet of a connection, and makes the passes of the loop over it, before it takes
the next one. `asked` is the resource in the last method line of a connection and `matched` what that
line names, `lastFile` is whose method line was the last, `lastLookup` the resource that the
registered ones were last looked through for, and `served` has the passes over requests in
`Processing`.
-/

namespace SimpleLink.Http.Isolation

open Lib Strings Conn Response Handlers Requests WebSocket Loop Kept Progress

abbrev ConnId : Type := Fin httpCoreMaxConnections

/-- A pass over a request in `Processing`: what its method line has named, and the session before
and after. -/
structure Served where
  own : Found
  before : Session
  after : Session
  goesOn : Bool

def Served.completed (a : Served) : Bool :=
  a.goesOn ∧ a.after.connectionState = .responseComplete

structure Server where
  connections : ConnId → HttpConnectionData
  globals : HttpGlobalState
  /-- The packet that is being handled, and what is left of it. -/
  current : Option (ConnId × HttpBlob × HttpBlob)
  asked : ConnId → Bytes
  matched : ConnId → Found
  lastFile : Option ConnId
  lastLookup : Option Bytes
  served : List Served

inductive Act where
  | accept (uConnection : ConnId)
  | recv (uConnection : ConnId) (packet : Bytes)
  | pass
  | close (uConnection : ConnId)

def Server.load (s : Server) (c : ConnId) : Session := ⟨s.connections c, s.globals⟩

def Server.store (s : Server) (c : ConnId) (t : Session) : Server :=
  { s with
    connections := fun d => if d = c then t.toHttpConnectionData else s.connections d
    globals := t.toHttpGlobalState }

/-- The states in which `RunHttpServer` receives. -/
def receives (state : HttpConnectionState) : Bool :=
  state = .requestMethod ∨ state = .requestHeaders ∨ state = .requestData ∨
    state = .dropCurrentHeader ∨ state = .webSocketDataRecv

def initConnection : HttpConnectionData where
  connectionState := .inactive
  uFlags := .zero
  requestContent := 0
  handler := .none
  headerStart := List.replicate httpCoreMaxHeaderLineLength 0
  uContentLeft := 0
  uSavedBufferSize := 0
  sent := []
  handled := []

def initGlobals (sends : List Int) : HttpGlobalState where
  packetSend := []
  cFileName := []
  fileHandle := 0
  numResource := 0
  restContent := List.replicate maxResource none
  wsKey := []
  wsOriginName := none
  origin := false
  webSock := ⟨[], 0, 0, false, [], false, false, 0⟩
  sends := sends
  opens := 0
  closed := []

/-- The server after `SetResources` has been called for each resource. -/
def serverInit (resources : List Resource) (sends : List Int) : Server where
  connections _ := initConnection
  globals := (resources.foldl (fun s r => (setResources r.restMethod r.resourceString r.pCbfunc s).1)
    ⟨initConnection, initGlobals sends⟩).toHttpGlobalState
  current := none
  asked _ := []
  matched _ := .none
  lastFile := none
  lastLookup := none
  served := []

def takesMethod (before after : Session) : Bool :=
  before.connectionState = .requestMethod ∧ after.connectionState = .requestHeaders

def Server.record (env : Env) (s : Server) (c : ConnId) (current : HttpBlob) (after : Session)
    (goesOn : Bool) : Server :=
  let before := s.load c
  let s' := s.store c after
  if takesMethod before after then
    let (method, resource) := (requested before current).getD (methodGet, [])
    { s' with
      asked := fun d => if d = c then resource else s.asked d
      matched := fun d => if d = c then named env before method resource else s.matched d
      lastFile := some c
      lastLookup := if after.handler = .httpStatic then s.lastLookup else some resource }
  else if before.connectionState = .processing then
    { s' with served := s.served ++ [⟨s.matched c, before, after, goesOn⟩] }
  else s'

def Server.close (env : Env) (s : Server) (c : ConnId) : Server :=
  s.store c (httpCoreCloseConnection env (s.load c))

def sysStep (env : Env) (s : Server) (act : Act) : Option (Server × Unit) :=
  match act, s.current with
  | .pass, some (c, packet, rest) =>
    match Loop.pass env packet rest (s.load c) with
    | .error _ => none
    | .ok (t, .again next) =>
      some ({ s.record env c rest t true with current := some (c, packet, next) }, ())
    | .ok (t, .returns true) => some ({ s.record env c rest t false with current := none }, ())
    | .ok (t, .returns false) =>
      some ({ (s.record env c rest t false).close env c with current := none }, ())
  | .accept c, none =>
    if (s.connections c).connectionState = .inactive then
      some (s.store c { s.load c with connectionState := .requestMethod }, ())
    else some (s, ())
  | .recv c packet, none =>
    if receives (s.connections c).connectionState ∧ packet ≠ [] ∧
      packet.length ≤ httpCoreMaxPacketSizeReceived then
      some ({ s with current := some (c, receivedPacket packet, receivedPacket packet) }, ())
    else some (s, ())
  | .close c, none =>
    if receives (s.connections c).connectionState then some (s.close env c, ()) else some (s, ())
  | _, _ => some (s, ())

/-! ## The property and the conditions -/

def statusText (s : Session) (uHttpStatus : Nat) (status : Bytes) : Bytes :=
  headerText s.uFlags.http11 uHttpStatus status status.length ++ status

/-- The answer of what has been found. -/
def answerText (env : Env) (s : Session) : Found → Bytes
  | .none => statusText s 404 (ascii "not found")
  | .file cFileName fileHandle =>
    let n := (env.fileLen cFileName).toNat
    if s.uFlags.methodPost then statusText s 500 (ascii "internal server error")
    else if (env.fsRead fileHandle 0 (min 1000 n)).isNone then statusText s 406 (ascii "not accepted")
    else headerText s.uFlags.http11 200 (ascii "ok") n ++ fileContent env fileHandle n n 0
  | .resource numResource =>
    match s.restContent[numResource]? with
    | some (some entry) =>
      let contentBody := cString (env.callback entry.pCbfunc)
      let uLength := contentBody.length % 2 ^ 16
      headerText s.uFlags.http11 200 (ascii "ok") uLength ++ contentBody.take uLength
    | _ => []

/-- Each request is processed with what its own method line has named, and what has been sent when it
is completed is the answer of that. -/
def Answers (env : Env) (s : Server) : Prop :=
  ∀ a ∈ s.served, found a.before = a.own ∧
    (a.completed = true → a.after.sent = a.before.sent ++ answerText env a.before a.own)

def Registered (s t : Server) : Prop := t.globals.restContent = s.globals.restContent

/-- When a file is sent, no method line has come since the one that asked for it, and when a resource
is sent, the resources have last been looked through for one with the same first match. -/
def OwnLast (s : Server) (act : Act) : Prop :=
  match act, s.current with
  | .pass, some (c, _, _) =>
    (s.connections c).connectionState = .processing →
      match (s.connections c).handler with
      | .none => True
      | .httpStatic => s.lastFile = some c
      | .httpDynamic =>
        match s.lastLookup with
        | none => False
        | some resource =>
          findResource resource s.globals.restContent 0 =
            findResource (s.asked c) s.globals.restContent 0
  | _, _ => True

/-- The file that a method line asks for can be opened, or the registered resources are looked
through without a match, and there are as many of them as entries. -/
def KeepsCount (env : Env) (s : Server) (act : Act) : Prop :=
  match act, s.current with
  | .pass, some (c, _, rest) =>
    (s.connections c).connectionState = .requestMethod →
      match requested (s.load c) rest with
      | none => True
      | some (_, resource) =>
        0 ≤ env.fsOpen s.globals.opens (fileName resource) ∨
          findResource resource s.globals.restContent 0 = .ok s.globals.numResource
  | _, _ => True

/-! ## The invariant -/

structure Inv (s₀ s : Server) : Prop where
  registered : Registered s₀ s
  matched : ∀ c, ¬ idle (s.load c) →
    match (s.connections c).handler with
    | .none => s.matched c = .none
    | .httpStatic => s.lastFile = some c →
        s.matched c = .file s.globals.cFileName s.globals.fileHandle
    | .httpDynamic => ∃ i, s.matched c = .resource i ∧
        findResource (s.asked c) s.globals.restContent 0 = .ok i
  looked : ∀ resource, s.lastLookup = some resource →
    findResource resource s.globals.restContent 0 = .ok s.globals.numResource

theorem load_store_same (s : Server) (c : ConnId) (t : Session) : (s.store c t).load c = t := by
  unfold Server.load Server.store
  dsimp only
  rw [if_pos rfl]

theorem connections_store_same (s : Server) (c : ConnId) (t : Session) :
    (s.store c t).connections c = t.toHttpConnectionData := if_pos rfl

theorem connections_store_ne (s : Server) {c d : ConnId} (hd : d ≠ c) (t : Session) :
    (s.store c t).connections d = s.connections d := if_neg hd

theorem Inv.store {s₀ s : Server} (h : Inv s₀ s) {c : ConnId} {t : Session}
    (hleaves : Leaves (s.load c) t) (hidle : idle (s.load c) → idle t) : Inv s₀ (s.store c t) := by
  have hglobals : (kept t).2 = (kept (s.load c)).2 := hleaves.elim (congrArg Prod.snd) And.right
  have hname : t.cFileName = s.globals.cFileName := congrArg Prod.fst hglobals
  have hrest := congrArg Prod.snd hglobals
  have hhandle : t.fileHandle = s.globals.fileHandle := congrArg Prod.fst hrest
  have hcount : t.numResource = s.globals.numResource := congrArg (fun k => k.2.1) hrest
  have htable : t.restContent = s.globals.restContent := congrArg (fun k => k.2.2) hrest
  have hkeep : ∀ d, (s.connections d).handler = ((s.store c t).connections d).handler →
      ¬ idle (s.load d) →
      match ((s.store c t).connections d).handler with
      | .none => s.matched d = .none
      | .httpStatic => s.lastFile = some d → s.matched d = .file t.cFileName t.fileHandle
      | .httpDynamic => ∃ i, s.matched d = .resource i ∧
          findResource (s.asked d) t.restContent 0 = .ok i := by
    intro d hhandler hbusy
    rw [← hhandler, hname, hhandle, htable]
    exact h.matched d hbusy
  refine ⟨htable.trans h.registered, fun d hbusy => ?_, fun resource hlast => ?_⟩
  · by_cases hd : d = c
    · subst hd
      rw [load_store_same] at hbusy
      refine hkeep d ?_ fun hidle' => hbusy (hidle hidle')
      rw [connections_store_same]
      rcases hleaves with hkept | ⟨hidle', -⟩
      · exact (congrArg Prod.fst hkept).symm
      · exact absurd hidle' hbusy
    · refine hkeep d ?_ ?_
      · rw [connections_store_ne s hd]
      · unfold Server.load at hbusy
        rw [connections_store_ne s hd] at hbusy
        exact hbusy
  · have hlooked := h.looked resource hlast
    rw [← htable, ← hcount] at hlooked
    exact hlooked

theorem Inv.takes {env : Env} {s₀ s : Server} (h : Inv s₀ s) {c : ConnId} {current : HttpBlob}
    {t : Session} {method : Nat} {resource : Bytes} {goesOn : Bool}
    (hmethod : (s.load c).connectionState = .requestMethod)
    (hrequested : requested (s.load c) current = some (method, resource))
    (htakes : TakesMethod env (s.load c) t method resource) :
    Inv s₀ (s.record env c current t goesOn) := by
  have htable : t.restContent = s.globals.restContent := htakes.restContent
  have hrecord : takesMethod (s.load c) t = true := by simp [takesMethod, hmethod, htakes.state]
  unfold Server.record
  dsimp only
  rw [if_pos hrecord, hrequested, Option.getD_some]
  dsimp only
  rw [← htakes.names]
  refine ⟨htable.trans h.registered, fun d hbusy => ?_, fun r hlast => ?_⟩
  · by_cases hd : d = c
    · subst hd
      dsimp only
      rw [connections_store_same, if_pos rfl, if_pos rfl]
      unfold found
      cases hhandler : t.handler with
      | none => rfl
      | httpStatic => exact fun _ => rfl
      | httpDynamic =>
        refine ⟨t.numResource, rfl, ?_⟩
        rcases htakes.found with ⟨hstatic, -⟩ | ⟨-, -, hfind⟩
        · rw [hhandler] at hstatic
          cases hstatic
        · exact htable ▸ hfind
    · have hbefore := h.matched d fun hidle => hbusy (by
        unfold Server.load at hidle ⊢
        dsimp only
        rw [connections_store_ne s hd]
        exact hidle)
      dsimp only
      rw [connections_store_ne s hd, if_neg hd, if_neg hd]
      revert hbefore
      cases (s.connections d).handler with
      | none => exact id
      | httpStatic => exact fun _ hlast => absurd (Option.some.inj hlast).symm hd
      | httpDynamic =>
        rintro ⟨i, hi, hfind⟩
        exact ⟨i, hi, htable ▸ hfind⟩
  · have hfound : findResource r t.restContent 0 = .ok t.numResource := by
      rw [htable]
      rcases htakes.found with ⟨hstatic, hcount, -⟩ | ⟨hstatic, -, hfind⟩
      · rw [if_pos hstatic] at hlast
        rw [hcount]
        exact h.looked r hlast
      · rw [if_neg hstatic] at hlast
        cases hlast
        exact hfind
    exact hfound

theorem Inv.record {env : Env} {s₀ s : Server} (h : Inv s₀ s) {c : ConnId}
    {packet current : HttpBlob} {t : Session} {next : Next} (goesOn : Bool)
    (hpass : Loop.pass env packet current (s.load c) = .ok (t, next)) :
    Inv s₀ (s.record env c current t goesOn) := by
  rcases pass_cases hpass with ⟨hmethod, method, resource, hrequested, htakes⟩ | ⟨hactive, hnone⟩
  · exact h.takes hmethod hrequested htakes
  · have hstore : Inv s₀ (s.store c t) := h.store hnone.leaves fun hidle => by
      rcases hidle with hmethod | hinactive
      · exact .inl (hnone.waits hmethod)
      · exact absurd hinactive hactive
    have hrecord : ¬ takesMethod (s.load c) t = true := by
      unfold takesMethod
      rw [decide_eq_true_iff]
      rintro ⟨hmethod, hheaders⟩
      rw [hnone.waits hmethod] at hheaders
      cases hheaders
    unfold Server.record
    dsimp only
    rw [if_neg hrecord]
    split
    · exact ⟨hstore.registered, hstore.matched, hstore.looked⟩
    · exact hstore

theorem closes_idle (env : Env) {s : Session} (hidle : idle s) :
    idle (httpCoreCloseConnection env s) := by
  unfold httpCoreCloseConnection
  split
  · exact .inr rfl
  · exact hidle

theorem Inv.close {s₀ s : Server} (h : Inv s₀ s) (env : Env) (c : ConnId) : Inv s₀ (s.close env c) :=
  h.store (httpCoreCloseConnection_rests env _).leaves (closes_idle env)

theorem sysStep_cases {env : Env} {s s' : Server} {act : Act} {o : Unit}
    (h : sysStep env s act = some (s', o)) :
    ∃ t current, s' = { t with current := current } ∧
      ((∃ c packet rest after next goesOn, act = .pass ∧ s.current = some (c, packet, rest) ∧
          Loop.pass env packet rest (s.load c) = .ok (after, next) ∧
          (goesOn = true → ∃ rest, next = .again rest) ∧
          (t = s.record env c rest after goesOn ∨ t = (s.record env c rest after goesOn).close env c)) ∨
        t = s ∨
        ∃ c after, t = s.store c after ∧
          ((s.load c).connectionState = .inactive ∧
              after = { s.load c with connectionState := .requestMethod } ∨
            after = httpCoreCloseConnection env (s.load c))) := by
  unfold sysStep at h
  split at h
  · rename_i c packet rest hcurrent
    split at h
    · cases h
    · rename_i t next hpass
      cases h
      exact ⟨_, _, rfl, .inl ⟨c, packet, rest, t, _, true, rfl, hcurrent, hpass,
        fun _ => ⟨_, rfl⟩, .inl rfl⟩⟩
    · rename_i t hpass
      cases h
      exact ⟨_, _, rfl, .inl ⟨c, packet, rest, t, _, false, rfl, hcurrent, hpass,
        fun hgoes => absurd hgoes Bool.false_ne_true, .inl rfl⟩⟩
    · rename_i t hpass
      cases h
      exact ⟨_, _, rfl, .inl ⟨c, packet, rest, t, _, false, rfl, hcurrent, hpass,
        fun hgoes => absurd hgoes Bool.false_ne_true, .inr rfl⟩⟩
  · rename_i c _
    split at h
    · rename_i hinactive
      cases h
      exact ⟨_, _, rfl, .inr (.inr ⟨c, _, rfl, .inl ⟨hinactive, rfl⟩⟩)⟩
    · cases h
      exact ⟨s, _, rfl, .inr (.inl rfl)⟩
  · split at h
    · cases h
      exact ⟨s, _, rfl, .inr (.inl rfl)⟩
    · cases h
      exact ⟨s, _, rfl, .inr (.inl rfl)⟩
  · split at h
    · cases h
      exact ⟨_, _, rfl, .inr (.inr ⟨_, _, rfl, .inr rfl⟩)⟩
    · cases h
      exact ⟨s, _, rfl, .inr (.inl rfl)⟩
  · cases h
    exact ⟨s, _, rfl, .inr (.inl rfl)⟩

theorem Inv.step {env : Env} {s₀ s s' : Server} {act : Act} {o : Unit} (h : Inv s₀ s)
    (hstep : sysStep env s act = some (s', o)) : Inv s₀ s' := by
  obtain ⟨t, current, rfl, hcases⟩ := sysStep_cases hstep
  have ht : Inv s₀ t := by
    rcases hcases with ⟨c, packet, rest, after, next, goesOn, rfl, hcurrent, hpass, -, rfl | rfl⟩ |
      rfl | ⟨c, after, rfl, ⟨-, rfl⟩ | rfl⟩
    · exact h.record goesOn hpass
    · exact (h.record goesOn hpass).close env c
    · exact h
    · exact h.store (.inl rfl) fun _ => .inl rfl
    · exact h.close env c
  exact ⟨ht.registered, ht.matched, ht.looked⟩

theorem inv_serverInit (resources : List Resource) (sends : List Int) :
    Inv (serverInit resources sends) (serverInit resources sends) :=
  ⟨rfl, fun _ hbusy => absurd (.inr rfl) hbusy, fun _ hlast => nomatch hlast⟩

/-! ## What is sent -/

theorem cannedError_sends {uHttpStatus : Nat} {status : Bytes} {s t : Session} {rc : Bool}
    (hstatus : httpStatusString uHttpStatus = some status) (hpos : 0 < status.length)
    (hshort : status.length ≤ httpCoreMaxPacketSizeSend) (hproc : s.connectionState = .processing)
    (hcomplete : t.connectionState = .responseComplete)
    (h : httpResponseCannedError uHttpStatus s = .ok (t, rc)) :
    t.sent = s.sent ++ statusText s uHttpStatus status := by
  by_cases hempty : s.packetSend = []
  · have hcases := httpResponseCannedError_cases hstatus hpos hshort hempty hproc
    rcases hd : delivers s.sends [(headerText s.uFlags.http11 uHttpStatus status
        status.length).length, status.length] with _ | ⟨_ | _, sends⟩
    · rw [hd, h] at hcases
      cases hcases
    · rw [hd] at hcases
      obtain ⟨s', hcanned, -, -, hleft⟩ := hcases
      rw [h] at hcanned
      obtain ⟨rfl, -⟩ := Prod.mk.inj (Except.ok.inj hcanned)
      rcases hleft with ⟨hleft, -⟩ | hleft
      · rw [hcomplete] at hleft
        cases hleft
      · rw [hcomplete] at hleft
        cases hleft
    · rw [hd, h] at hcases
      obtain ⟨rfl, -⟩ := Prod.mk.inj (Except.ok.inj hcases)
      rfl
  · rw [httpResponseCannedError_error fun n => httpResponseHeaders_busy hempty] at h
    cases h

theorem dynamic_sends {env : Env} {s t : Session} (hproc : s.connectionState = .processing)
    (h : httpDynamicProcessRequest env s = .ok (t, true)) :
    t.sent = s.sent ++ answerText env s (.resource s.numResource) := by
  unfold answerText
  dsimp only
  rcases hentry : s.restContent[s.numResource]? with _ | _ | entry
  · unfold httpDynamicProcessRequest at h
    rw [hentry] at h
    cases h
  · unfold httpDynamicProcessRequest at h
    rw [hentry] at h
    cases h
  · dsimp only
    by_cases hempty : s.packetSend = []
    · have hcases := httpDynamicProcessRequest_cases env hentry rfl hempty hproc
      generalize (cString (env.callback entry.pCbfunc)).length % 2 ^ 16 = n at hcases ⊢
      rcases hd : delivers s.sends (headerLength s 200 (ascii "ok") n :: packetLens n) with
        _ | ⟨_ | _, sends⟩
      · rw [hd, h] at hcases
        cases hcases
      · rw [hd] at hcases
        obtain ⟨s', out, hprocess, -⟩ := hcases
        rw [h] at hprocess
        cases (Prod.mk.inj (Except.ok.inj hprocess)).2
      · rw [hd, h] at hcases
        obtain ⟨rfl, -⟩ := Prod.mk.inj (Except.ok.inj hcases)
        rfl
    · unfold httpDynamicProcessRequest at h
      rw [hentry] at h
      dsimp only at h
      rw [httpResponseHeaders_busy hempty] at h
      cases h

theorem static_sends {env : Env} {s t : Session} (hproc : s.connectionState = .processing)
    (hcomplete : t.connectionState = .responseComplete)
    (h : httpStaticProcessRequest env s = .ok (t, true)) :
    t.sent = s.sent ++ answerText env s (.file s.cFileName s.fileHandle) := by
  unfold httpStaticProcessRequest at h
  unfold answerText
  dsimp only
  by_cases hmalloc : env.malloc sizeofHttpBlob = true
  · rw [if_neg (not_not_intro hmalloc)] at h
    by_cases hpost : s.uFlags.methodPost = true
    · rw [if_pos hpost] at h ⊢
      exact cannedError_sends rfl (by decide) (by decide) hproc hcomplete h
    · rw [if_neg hpost] at h ⊢
      dsimp only at h
      generalize (env.fileLen s.cFileName).toNat = n at h ⊢
      by_cases hzero : n = 0
      · subst hzero
        obtain ⟨rfl, -⟩ := Prod.mk.inj (Except.ok.inj h)
        rw [hproc] at hcomplete
        cases hcomplete
      · by_cases hread : env.malloc (min 1000 n) = true →
            (env.fsRead s.fileHandle 0 (min 1000 n)).isSome = true
        · rcases readLoop_start hzero hproc hread with
            ⟨-, hfile, -, s', hloop, hanswered, -⟩ | ⟨-, ⟨halt, hloop⟩ | ⟨s', hloop, -⟩⟩
          · rw [hloop] at h
            obtain ⟨rfl, -⟩ := Prod.mk.inj (Except.ok.inj h)
            rw [if_neg (by rw [Option.isNone_eq_false_iff.2 (hfile.first hzero).2]; decide)]
            exact hanswered.sent
          · rw [hloop] at h
            cases h
          · rw [hloop] at h
            cases (Prod.mk.inj (Except.ok.inj h)).2
        · obtain ⟨hroom, hunread⟩ := not_forall.1 hread
          have hnone := Option.not_isSome_iff_eq_none.1 hunread
          rw [readLoop_unread hzero hroom hnone] at h
          rw [if_pos (by rw [hnone]; rfl)]
          rcases hcanned : httpResponseCannedError httpStatusErrorNotAccepted s with _ | ⟨s', rc⟩
          · rw [hcanned] at h
            cases h
          · rw [hcanned] at h
            obtain ⟨rfl, -⟩ := Prod.mk.inj (Except.ok.inj h)
            exact cannedError_sends rfl (by decide) (by decide) hproc hcomplete hcanned
  · rw [if_pos hmalloc] at h
    cases (Prod.mk.inj (Except.ok.inj h)).2

/-- A request that is completed has been sent the answer of what the globals say. -/
theorem respond_sends {env : Env} {s t : Session} (hproc : s.connectionState = .processing)
    (hcomplete : t.connectionState = .responseComplete) (h : respond env s = .ok (t, true)) :
    t.sent = s.sent ++ answerText env s (found s) := by
  cases hhandler : s.handler with
  | none =>
    have hfound : found s = .none := by
      unfold found
      rw [hhandler]
    rw [respond_none hproc hhandler] at h
    rw [hfound]
    rcases hcanned : httpResponseCannedError httpStatusErrorNotFound s with _ | ⟨s', rc⟩
    · rw [hcanned] at h
      cases h
    · rw [hcanned] at h
      obtain ⟨rfl, -⟩ := Prod.mk.inj (Except.ok.inj h)
      exact cannedError_sends rfl (by decide) (by decide) hproc hcomplete hcanned
  | httpStatic =>
    have hfound : found s = .file s.cFileName s.fileHandle := by
      unfold found
      rw [hhandler]
    unfold respond at h
    rw [hproc, hhandler] at h
    rw [hfound]
    exact static_sends hproc hcomplete h
  | httpDynamic =>
    have hfound : found s = .resource s.numResource := by
      unfold found
      rw [hhandler]
    unfold respond at h
    rw [hproc, hhandler] at h
    rw [hfound]
    exact dynamic_sends hproc h

theorem pass_respond {env : Env} {packet current rest : HttpBlob} {s t : Session}
    (hproc : s.connectionState = .processing)
    (h : Loop.pass env packet current s = .ok (t, .again rest)) : respond env s = .ok (t, true) := by
  unfold Loop.pass at h
  rw [hproc] at h
  dsimp only at h
  rcases hrespond : respond env s with _ | ⟨s', _ | _⟩
  · rw [hrespond] at h
    cases h
  · rw [hrespond] at h
    cases (Prod.mk.inj (Except.ok.inj h)).2
  · rw [hrespond] at h
    rw [(Prod.mk.inj (Except.ok.inj h)).1]

/-! ## The answers -/

theorem Inv.own {s₀ s : Server} (h : Inv s₀ s) {c : ConnId} {packet rest : HttpBlob}
    (hcurrent : s.current = some (c, packet, rest))
    (hproc : (s.load c).connectionState = .processing) (hown : OwnLast s .pass) :
    found (s.load c) = s.matched c := by
  have hmatched := h.matched c (by
    rintro (hmethod | hinactive)
    · rw [hproc] at hmethod
      cases hmethod
    · rw [hproc] at hinactive
      cases hinactive)
  unfold OwnLast at hown
  rw [hcurrent] at hown
  have hown := hown hproc
  unfold found
  have hhandler : (s.load c).handler = (s.connections c).handler := rfl
  rw [hhandler]
  revert hmatched hown
  cases (s.connections c).handler with
  | none => exact fun hmatched _ => hmatched.symm
  | httpStatic => exact fun hmatched hlast => (hmatched hlast).symm
  | httpDynamic =>
    rintro ⟨i, hi, hfind⟩ hsame
    dsimp only at hsame
    split at hsame
    · exact hsame.elim
    · rename_i resource hlast
      have hlooked := h.looked resource hlast
      rw [hsame, hfind] at hlooked
      rw [hi]
      exact congrArg Found.resource (Except.ok.inj hlooked).symm

theorem answers_record {env : Env} {s : Server} {c : ConnId} {packet current : HttpBlob} {t : Session}
    {next : Next} {goesOn : Bool} (hanswers : Answers env s)
    (hpass : Loop.pass env packet current (s.load c) = .ok (t, next))
    (hgoes : goesOn = true → ∃ rest, next = .again rest)
    (hown : (s.load c).connectionState = .processing → found (s.load c) = s.matched c) :
    Answers env (s.record env c current t goesOn) := by
  unfold Server.record
  dsimp only
  split
  · exact hanswers
  · split
    · rename_i hproc
      intro a ha
      rcases List.mem_append.1 ha with ha | ha
      · exact hanswers a ha
      · rw [List.mem_singleton.1 ha]
        refine ⟨hown hproc, fun hcompleted => ?_⟩
        obtain ⟨hgoesOn, hcomplete⟩ := of_decide_eq_true hcompleted
        obtain ⟨rest, rfl⟩ := hgoes hgoesOn
        have hsent := respond_sends hproc hcomplete (pass_respond hproc hpass)
        rw [hown hproc] at hsent
        exact hsent
    · exact hanswers

theorem answers_step {env : Env} {s₀ s s' : Server} {act : Act} {o : Unit} (h : Inv s₀ s)
    (hanswers : Answers env s) (hown : OwnLast s act) (hstep : sysStep env s act = some (s', o)) :
    Answers env s' := by
  obtain ⟨t, current, rfl, hcases⟩ := sysStep_cases hstep
  rcases hcases with ⟨c, packet, rest, after, next, goesOn, rfl, hcurrent, hpass, hgoes, rfl | rfl⟩ |
    rfl | ⟨c, after, rfl, -⟩
  · exact answers_record hanswers hpass hgoes fun hproc => h.own hcurrent hproc hown
  · have hrecord := answers_record hanswers hpass hgoes fun hproc => h.own hcurrent hproc hown
    exact hrecord
  · exact hanswers
  · exact hanswers

/-! ## The number of resources -/

theorem numResource_leaves {s t : Session} (h : Leaves s t) : t.numResource = s.numResource :=
  congrArg (fun k => k.2.2.1) (h.elim (congrArg Prod.snd) And.right)

theorem numResource_record {env : Env} {s : Server} {c : ConnId} {packet rest : HttpBlob}
    {t : Session} {next : Next} (hcurrent : s.current = some (c, packet, rest))
    (hpass : Loop.pass env packet rest (s.load c) = .ok (t, next)) (hkeeps : KeepsCount env s .pass) :
    t.numResource = s.globals.numResource := by
  rcases pass_cases hpass with ⟨hmethod, method, resource, hrequested, htakes⟩ | ⟨-, hnone⟩
  · unfold KeepsCount at hkeeps
    rw [hcurrent] at hkeeps
    have hkeeps := hkeeps hmethod
    rw [hrequested] at hkeeps
    rcases htakes.found with ⟨-, hcount, -⟩ | ⟨-, hclosed, hfind⟩
    · exact hcount
    · rcases hkeeps with hopen | hlooked
      · exact absurd hclosed (Int.not_lt.2 hopen)
      · exact Except.ok.inj (hfind.symm.trans hlooked)
  · exact numResource_leaves hnone.leaves

theorem globals_record (env : Env) (s : Server) (c : ConnId) (current : HttpBlob) (t : Session)
    (goesOn : Bool) : (s.record env c current t goesOn).globals = t.toHttpGlobalState := by
  unfold Server.record
  dsimp only
  split
  · rfl
  · split <;> rfl

theorem numResource_step {env : Env} {s s' : Server} {act : Act} {o : Unit}
    (hkeeps : KeepsCount env s act) (hstep : sysStep env s act = some (s', o)) :
    s'.globals.numResource = s.globals.numResource := by
  obtain ⟨t, current, rfl, hcases⟩ := sysStep_cases hstep
  rcases hcases with ⟨c, packet, rest, after, next, goesOn, rfl, hcurrent, hpass, -, rfl | rfl⟩ |
    rfl | ⟨c, after, rfl, ⟨-, rfl⟩ | rfl⟩
  · dsimp only
    rw [globals_record]
    exact numResource_record hcurrent hpass hkeeps
  · refine (numResource_leaves (httpCoreCloseConnection_rests env _).leaves).trans ?_
    unfold Server.load
    dsimp only
    rw [globals_record]
    exact numResource_record hcurrent hpass hkeeps
  · rfl
  · rfl
  · exact numResource_leaves (httpCoreCloseConnection_rests env _).leaves

/-! ## The results -/

/-- Requests are answered with what their own method lines have asked for as long as each is answered
before another one takes its place in the globals, and no request changes the registered resources,
or their number as long as none of them is looked for. -/
theorem requests_isolated (env : Env) (resources : List Resource) (sends : List Int)
    {acts : List Act} {s : Server} {os : List Unit}
    (hrun : runs (sysStep env) (serverInit resources sends) acts = some (s, os)) :
    Registered (serverInit resources sends) s ∧
      (Meets (sysStep env) OwnLast (serverInit resources sends) acts → Answers env s) ∧
      (Meets (sysStep env) (KeepsCount env) (serverInit resources sends) acts →
        s.globals.numResource = (serverInit resources sends).globals.numResource) := by
  have hinit := inv_serverInit resources sends
  refine ⟨?_, fun hown => ?_, fun hkeeps => ?_⟩
  · exact (runs_preserves Inv.step hinit hrun).registered
  · have hanswers : Inv (serverInit resources sends) s ∧ Answers env s :=
      Meets.preserves (I := fun t => Inv (serverInit resources sends) t ∧ Answers env t)
        (fun h hC hstep => ⟨h.1.step hstep, answers_step h.1 h.2 hC hstep⟩)
        ⟨hinit, fun _ ha => nomatch ha⟩ hown hrun
    exact hanswers.2
  · exact Meets.preserves
      (I := fun t => t.globals.numResource = (serverInit resources sends).globals.numResource)
      (fun h hC hstep => (numResource_step hC hstep).trans h) rfl hkeeps hrun

instance (s : Server) (act : Act) : Decidable (OwnLast s act) := by
  unfold OwnLast
  split
  · refine @instDecidableForall _ _ inferInstance ?_
    split
    · infer_instance
    · infer_instance
    · split <;> infer_instance
  · infer_instance

instance (env : Env) (s : Server) (act : Act) : Decidable (KeepsCount env s act) := by
  unfold KeepsCount
  split
  · refine @instDecidableForall _ _ inferInstance ?_
    split <;> infer_instance
  · infer_instance

local instance neZero_connections : NeZero httpCoreMaxConnections := ⟨by decide⟩

/-- A request for a file that is over before the next one begins. -/
def oneAfterTheOther : List Act :=
  [.accept 0, .recv 0 (ascii "GET /a HTTP/1.1" ++ [13, 10, 13, 10]), .pass, .pass, .pass, .pass,
    .pass, .pass, .accept 1, .recv 1 (ascii "GET /b HTTP/1.1" ++ [13, 10]), .pass, .pass]

set_option maxRecDepth 20000 in
theorem requests_isolated_one : ∃ s os,
    runs (sysStep threeBytes) (serverInit [⟨1, ascii "led", 0⟩] [38, 3]) oneAfterTheOther =
      some (s, os) ∧ s.served.map Served.completed = [true] ∧ Answers threeBytes s ∧
      s.globals.numResource = 1 := by
  have hserved : ((runs (sysStep threeBytes) (serverInit [⟨1, ascii "led", 0⟩] [38, 3])
      oneAfterTheOther).map fun r => r.1.served.map Served.completed) = some [true] := by
    decide +kernel
  obtain ⟨⟨s, os⟩, hrun, hcompleted⟩ := Option.map_eq_some_iff.1 hserved
  obtain ⟨-, hanswers, hcount⟩ := requests_isolated threeBytes _ _ hrun
  exact ⟨s, os, hrun, hcompleted, hanswers (by decide +kernel), hcount (by decide +kernel)⟩

/-- Two requests for files, with the second method line before the end of the first request. -/
def twoFiles : List Act :=
  [.accept 0, .accept 1, .recv 0 (ascii "GET /a HTTP/1.1" ++ [13, 10]), .pass, .pass,
    .recv 1 (ascii "GET /b HTTP/1.1" ++ [13, 10]), .pass, .pass, .recv 0 [13, 10], .pass, .pass,
    .pass]

/-- Two files of three bytes each. -/
def aAndB : Env :=
  { threeBytes with
    fsOpen := fun _ name => if name = ascii "www/a" then 97 else 98
    fsRead := fun fileHandle _ len => some (Vector.replicate len (UInt8.ofNat fileHandle.toNat)) }

set_option maxRecDepth 20000 in
/-- The first one is answered with the file of the second. -/
theorem other_file_served : ∃ s os,
    runs (sysStep aAndB) (serverInit [] [38, 3]) twoFiles = some (s, os) ∧
      s.served.map (fun a => (a.own, a.completed, a.after.sent.drop 38)) =
        [(.file (ascii "www/a") 97, true, ascii "bbb")] ∧ ¬ Answers aAndB s := by
  have hserved : ((runs (sysStep aAndB) (serverInit [] [38, 3]) twoFiles).map fun r =>
      (r.1.served.map fun a => (a.own, a.completed, a.after.sent.drop 38),
        decide (∀ a ∈ r.1.served, found a.before = a.own))) =
      some ([(.file (ascii "www/a") 97, true, ascii "bbb")], false) := by decide +kernel
  obtain ⟨⟨s, os⟩, hrun, hpairs⟩ := Option.map_eq_some_iff.1 hserved
  obtain ⟨hsent, hfound⟩ := Prod.mk.inj hpairs
  exact ⟨s, os, hrun, hsent, fun hanswers =>
    of_decide_eq_false hfound fun a ha => (hanswers a ha).1⟩

end SimpleLink.Http.Isolation
