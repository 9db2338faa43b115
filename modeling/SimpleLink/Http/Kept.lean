import SimpleLink.Http.Loop

/-!
# What a pass leaves alone

A method line changes what the next answer is taken from, and so does the end of a request. Nothing
else in the loop does.
-/

namespace SimpleLink.Http.Kept

open Strings Conn Response Handlers Requests WebSocket Loop

def kept (s : Session) : HttpHandler × Bytes × Int × Nat × List (Option Resource) :=
  (s.handler, s.cFileName, s.fileHandle, s.numResource, s.restContent)

def idle (s : Session) : Prop :=
  s.connectionState = .requestMethod ∨ s.connectionState = .inactive

def Leaves (s t : Session) : Prop :=
  kept t = kept s ∨ idle t ∧ (kept t).2 = (kept s).2

theorem leaves_of_kept {s t u : Session} (hst : kept t = kept s) (htu : Leaves t u) :
    Leaves s u := by
  unfold Leaves at *
  rwa [hst] at htu

/-- The session without what changes when something is sent, or received over a websocket. -/
def unsent (s : Session) : Session :=
  { s with
    connectionState := .inactive
    sent := []
    handled := []
    packetSend := []
    webSock := ⟨[], 0, 0, false, [], false, false, 0⟩
    sends := []
    closed := [] }

/-- Nothing else has changed, or the connection has been reset. -/
def Rests (s t : Session) : Prop :=
  unsent t = unsent s ∨ idle t ∧ unsent t = unsent (httpCoreResetConnection s)

def answering (state : HttpConnectionState) : Prop := state = .responseData ∨ state = .responseComplete

/-- An answer counts what is left of it, and goes through its states. -/
structure Answered (s t : Session) : Prop where
  rest : unsent { t with uContentLeft := 0 } = unsent { s with uContentLeft := 0 }
  state : t.connectionState = s.connectionState ∨ answering t.connectionState

theorem Answered.refl (s : Session) : Answered s s := ⟨rfl, .inl rfl⟩

theorem Answered.trans {s t u : Session} (hst : Answered s t) (htu : Answered t u) : Answered s u := by
  refine ⟨htu.rest.trans hst.rest, ?_⟩
  rcases htu.state with hsame | hanswering
  · rw [hsame]
    exact hst.state
  · exact .inr hanswering

theorem kept_of_unsent {s t : Session} (h : unsent t = unsent s) : kept t = kept s := by
  have hkept : kept (unsent t) = kept (unsent s) := congrArg kept h
  exact hkept

theorem Answered.kept {s t : Session} (h : Answered s t) : Kept.kept t = Kept.kept s :=
  (kept_of_unsent h.rest : Kept.kept { t with uContentLeft := 0 } = Kept.kept { s with uContentLeft := 0 })

theorem rests_of_unsent {s t u : Session} (hst : unsent t = unsent s) (htu : Rests t u) : Rests s u := by
  have hreset : unsent (httpCoreResetConnection (unsent t)) = unsent (httpCoreResetConnection (unsent s)) :=
    congrArg (fun r => unsent (httpCoreResetConnection r)) hst
  rcases htu with hsame | ⟨hidle, hagain⟩
  · exact .inl (hsame.trans hst)
  · exact .inr ⟨hidle, hagain.trans hreset⟩

theorem Rests.leaves {s t : Session} (h : Rests s t) : Leaves s t := by
  rcases h with hsame | ⟨hidle, hreset⟩
  · exact .inl (kept_of_unsent hsame)
  · have hkept : kept t = kept (httpCoreResetConnection s) := kept_of_unsent hreset
    have hrest : (kept t).2 = (kept (httpCoreResetConnection s)).2 := congrArg Prod.snd hkept
    exact .inr ⟨hidle, hrest⟩

/-! ## What is sent -/

theorem sendLoop_changes {fuel : Nat} : ∀ {buffer : Bytes} {s t : Session} {rc : Bool},
    sendLoop fuel buffer s = .ok (t, rc) →
      ∃ sends sent, t = { s with sends := sends, sent := sent } := by
  induction fuel with
  | zero =>
    intro buffer s t rc h
    cases h
    exact ⟨s.sends, s.sent, rfl⟩
  | succ fuel ih =>
    intro buffer s t rc h
    unfold sendLoop at h
    split at h
    · cases h
      exact ⟨s.sends, s.sent, rfl⟩
    · split at h
      · cases h
      · dsimp only at h
        split at h
        · cases h
          exact ⟨_, _, rfl⟩
        · obtain ⟨sends, sent, rfl⟩ := ih h
          exact ⟨sends, sent, rfl⟩

theorem httpCoreSendPacket_changes {buffer : Bytes} {s t : Session} {rc : Bool}
    (h : httpCoreSendPacket buffer s = .ok (t, rc)) :
    ∃ sends sent, t = { s with sends := sends, sent := sent } := sendLoop_changes h

theorem httpCoreSendPacket_unsent {buffer : Bytes} {s t : Session} {rc : Bool}
    (h : httpCoreSendPacket buffer s = .ok (t, rc)) : unsent t = unsent s := by
  obtain ⟨sends, sent, rfl⟩ := httpCoreSendPacket_changes h
  rfl

theorem addStrings_packet {strs : List Bytes} : ∀ {s t : Session},
    strs.foldlM addString s = .ok t → t = { s with packetSend := s.packetSend ++ strs.flatten } := by
  induction strs with
  | nil =>
    intro s t h
    cases h
    rw [List.flatten_nil, List.append_nil]
  | cons str strs ih =>
    intro s t h
    rw [List.foldlM_cons] at h
    by_cases hfits : s.packetSend.length + str.length ≤ httpCoreMaxPacketSizeSend
    · have hadd : addString s str = .ok { s with packetSend := s.packetSend ++ str } := if_pos hfits
      rw [hadd] at h
      rw [ih h, List.flatten_cons, List.append_assoc]
    · have hadd : addString s str = .error .outOfBounds := if_neg hfits
      rw [hadd] at h
      cases h

theorem addStrings_changes {strs : List Bytes} {s t : Session} (h : strs.foldlM addString s = .ok t) :
    ∃ packetSend, t = { s with packetSend := packetSend } := ⟨_, addStrings_packet h⟩

theorem addStrings_unsent {strs : List Bytes} {s t : Session} (h : strs.foldlM addString s = .ok t) :
    unsent t = unsent s := by
  obtain ⟨packetSend, rfl⟩ := addStrings_changes h
  rfl

theorem packet_answered {strs : List Bytes} {s s₁ s₂ : Session} {n : Nat} {rc : Bool}
    (hadd : strs.foldlM addString s = .ok s₁)
    (hsend : httpCoreSendPacket s₁.packetSend { s₁ with uContentLeft := n } = .ok (s₂, rc)) :
    Answered s s₂ := by
  obtain ⟨packetSend, rfl⟩ := addStrings_changes hadd
  obtain ⟨sends, sent, rfl⟩ := httpCoreSendPacket_changes hsend
  exact ⟨rfl, .inl rfl⟩

theorem httpResponseHeaders_answered {uHttpStatus n : Nat} {s t : Session} {rc : Bool}
    (h : httpResponseHeaders uHttpStatus false n [] [] s = .ok (t, rc)) : Answered s t := by
  unfold httpResponseHeaders at h
  split at h
  · cases h
  · split at h
    · cases h
    · split at h
      · cases h
      · rename_i s₁ hadd
        split at h
        · cases h
        · rename_i s₂ hsend
          cases h
          exact packet_answered hadd hsend
        · rename_i s₂ hsend
          have hs₂ := packet_answered hadd hsend
          cases h
          refine ⟨hs₂.rest, .inr ?_⟩
          dsimp only
          split
          · exact .inl rfl
          · exact .inr rfl

theorem httpResponseContent_answered {content : Bytes} {s t : Session} {rc : Bool}
    (h : httpResponseContent content s = .ok (t, rc)) : Answered s t := by
  unfold httpResponseContent at h
  split at h
  · cases h
  · split at h
    · cases h
    · rename_i s₁ hsend
      obtain ⟨sends, sent, rfl⟩ := httpCoreSendPacket_changes hsend
      cases h
      exact ⟨rfl, .inl rfl⟩
    · rename_i s₁ hsend
      obtain ⟨sends, sent, rfl⟩ := httpCoreSendPacket_changes hsend
      cases h
      refine ⟨rfl, ?_⟩
      dsimp only
      split
      · exact .inr (.inr rfl)
      · exact .inl rfl

theorem httpResponseCannedError_answered {uHttpStatus : Nat} {s t : Session} {rc : Bool}
    (h : httpResponseCannedError uHttpStatus s = .ok (t, rc)) : Answered s t := by
  unfold httpResponseCannedError at h
  split at h
  · cases h
  · split at h
    · cases h
    · rename_i s₁ hheaders
      cases h
      exact httpResponseHeaders_answered hheaders
    · rename_i s₁ hheaders
      exact (httpResponseHeaders_answered hheaders).trans (httpResponseContent_answered h)

/-! ## The answers -/

theorem readLoop_answered {env : Env} {fuel : Nat} : ∀ {totalLength offset : Nat} {headerFlag : Bool}
    {s t : Session} {rc : Option Bool},
    readLoop env fuel totalLength offset headerFlag s = .ok (t, rc) → Answered s t := by
  induction fuel with
  | zero =>
    intro totalLength offset headerFlag s t rc h
    cases h
    exact .refl s
  | succ fuel ih =>
    intro totalLength offset headerFlag s t rc h
    unfold readLoop at h
    split at h
    · cases h
      exact .refl s
    · extract_lets uLength at h
      clear_value uLength
      split at h
      · cases h
        exact .refl s
      · split at h
        · split at h
          · cases h
          · rename_i s₁ rc₁ herror
            cases h
            exact httpResponseCannedError_answered herror
        · have hheaders : ∀ {s₁ rc₁}, (if headerFlag = true then .ok (s, true)
              else httpResponseHeaders httpStatusOk false totalLength [] [] s) =
                Except.ok (s₁, rc₁) → Answered s s₁ := by
            intro s₁ rc₁ hh
            split at hh
            · cases hh
              exact .refl s
            · exact httpResponseHeaders_answered hh
          split at h
          · cases h
          · rename_i s₁ hh
            cases h
            exact hheaders hh
          · rename_i s₁ hh
            split at h
            · cases h
            · rename_i s₂ hcontent
              cases h
              exact (hheaders hh).trans (httpResponseContent_answered hcontent)
            · rename_i s₂ hcontent
              exact ((hheaders hh).trans (httpResponseContent_answered hcontent)).trans (ih h)

theorem httpStaticProcessRequest_answered {env : Env} {s t : Session} {rc : Bool}
    (h : httpStaticProcessRequest env s = .ok (t, rc)) : Answered s t := by
  unfold httpStaticProcessRequest at h
  split at h
  · cases h
    exact .refl s
  · split at h
    · exact httpResponseCannedError_answered h
    · dsimp only at h
      split at h
      · cases h
      · rename_i s₁ rc₁ hloop
        cases h
        exact readLoop_answered hloop
      · rename_i s₁ hloop
        have hs₁ := readLoop_answered hloop
        cases h
        exact ⟨hs₁.rest, hs₁.state⟩

theorem httpDynamicProcessRequest_answered {env : Env} {s t : Session} {rc : Bool}
    (h : httpDynamicProcessRequest env s = .ok (t, rc)) : Answered s t := by
  unfold httpDynamicProcessRequest at h
  split at h
  · dsimp only at h
    split at h
    · cases h
    · rename_i s₁ hheaders
      cases h
      exact httpResponseHeaders_answered hheaders
    · rename_i s₁ hheaders
      have hs₁ := httpResponseHeaders_answered hheaders
      split at h
      · exact hs₁.trans (httpResponseContent_answered h)
      · cases h
        exact hs₁
  · cases h

theorem respond_answered {env : Env} {s t : Session} {rc : Bool}
    (h : respond env s = .ok (t, rc)) :
    Answered s t ∧ (s.connectionState = .processing ∨ answering s.connectionState) ∨
      t = httpCoreResetConnection { s with connectionState := .requestMethod } := by
  unfold respond at h
  split at h
  · rename_i hstate
    refine .inl ⟨?_, .inl hstate⟩
    split at h
    · exact httpStaticProcessRequest_answered h
    · exact httpDynamicProcessRequest_answered h
    · split at h
      · cases h
      · rename_i s₁ hfound
        cases h
        unfold httpCoreProcessNotFound at hfound
        split at hfound
        · cases hfound
        · rename_i s₂ rc₂ herror
          cases hfound
          exact httpResponseCannedError_answered herror
  · rename_i hstate
    split at h
    · cases h
      exact .inl ⟨.refl s, .inr (.inr hstate)⟩
    · cases h
      exact .inr rfl
  · cases h

theorem respond_leaves {env : Env} {s t : Session} {rc : Bool}
    (h : respond env s = .ok (t, rc)) : Leaves s t := by
  rcases respond_answered h with ⟨hanswered, -⟩ | rfl
  · exact .inl hanswered.kept
  · exact .inr ⟨.inl rfl, rfl⟩

/-! ## The lines and the content -/

def TakesLine (s t : Session) : Prop :=
  ∃ connectionState headerStart uSavedBufferSize,
    t = { s with
      connectionState := connectionState
      headerStart := headerStart
      uSavedBufferSize := uSavedBufferSize } ∧
    (connectionState = s.connectionState ∨
      s.connectionState ≠ .requestMethod ∧ connectionState = .dropCurrentHeader)

theorem saveLine_takes {s t : Session} {current : HttpBlob} {next : NextLine}
    (h : saveLine s current = (t, next)) : TakesLine s t := by
  unfold saveLine at h
  split at h
  · cases h
    exact ⟨_, _, _, rfl, .inl rfl⟩
  · split at h
    · cases h
      exact ⟨_, _, _, rfl, .inl rfl⟩
    · rename_i hmethod
      cases h
      exact ⟨_, _, _, rfl, .inr ⟨hmethod, rfl⟩⟩

theorem httpCoreGetNextLine_takes {s t : Session} {current : HttpBlob} {next : NextLine}
    (h : httpCoreGetNextLine s current = .ok (t, next)) : TakesLine s t := by
  unfold httpCoreGetNextLine at h
  dsimp only at h
  split at h
  · split at h
    · split at h
      · cases h
        exact ⟨_, _, _, rfl, .inl rfl⟩
      · cases h
    · split at h
      · exact saveLine_takes (Except.ok.inj h)
      · have hend := Except.ok.inj h
        unfold endSavedLine at hend
        dsimp only at hend
        split at hend
        · cases hend
          exact ⟨_, _, _, rfl, .inl rfl⟩
        · split at hend
          · cases hend
            exact ⟨_, _, _, rfl, .inl rfl⟩
          · cases hend
            exact ⟨_, _, _, rfl, .inl rfl⟩
  · split at h
    · exact saveLine_takes (Except.ok.inj h)
    · have hend := Except.ok.inj h
      unfold endLine at hend
      dsimp only at hend
      split at hend
      · cases hend
        exact ⟨_, _, _, rfl, .inl rfl⟩
      · split at hend
        · cases hend
          exact ⟨_, _, _, rfl, .inl rfl⟩
        · rename_i hmethod
          cases hend
          exact ⟨_, _, _, rfl, .inr ⟨hmethod, rfl⟩⟩

theorem TakesLine.globals {s t : Session} (h : TakesLine s t) :
    t.toHttpGlobalState = s.toHttpGlobalState ∧ t.handler = s.handler ∧
      (t.connectionState = s.connectionState ∨
        s.connectionState ≠ .requestMethod ∧ t.connectionState = .dropCurrentHeader) := by
  obtain ⟨_, _, _, rfl, hstate⟩ := h
  exact ⟨rfl, rfl, hstate⟩

theorem kept_of_globals {s t : Session} (hg : t.toHttpGlobalState = s.toHttpGlobalState)
    (hh : t.handler = s.handler) : kept t = kept s := by
  unfold kept
  rw [hg, hh]

theorem httpCoreHandleHeaderLine_kept {line : Option HttpBlob} {s t : Session} {rc : Bool}
    (h : httpCoreHandleHeaderLine line s = .ok (t, rc)) : kept t = kept s := by
  unfold httpCoreHandleHeaderLine at h
  repeat' split at h
  all_goals first
    | cases h; rfl
    | cases h

theorem httpCoreHandleRequestData_kept {data : HttpBlob} {s t : Session} {rest : Option HttpBlob}
    (h : httpCoreHandleRequestData data s = .ok (t, rest)) : kept t = kept s := by
  unfold httpCoreHandleRequestData at h
  dsimp only at h
  repeat' split at h
  all_goals first
    | cases h; rfl
    | cases h

/-! ## Websockets -/

/-- Of the connection a handshake changes the state and whether the client is a browser, and nothing that
an answer is taken from. -/
def TakesHandshake (s t : Session) : Prop :=
  ∃ connectionState browser wsKey wsOriginName origin,
    t = { s with
      connectionState := connectionState
      uFlags := { s.uFlags with browser := browser }
      wsKey := wsKey
      wsOriginName := wsOriginName
      origin := origin }

theorem handshakeOrigin_takes {env : Env} {line : HttpBlob} {s t : Session} {rc : Bool}
    (h : handshakeOrigin env line s = .ok (t, rc)) : TakesHandshake s t := by
  unfold handshakeOrigin at h
  dsimp only at h
  repeat' split at h
  all_goals first
    | cases h; exact ⟨_, _, _, _, _, rfl⟩
    | cases h

theorem wsCoreHandshakeRequest_takes {env : Env} {line : Option HttpBlob} {s t : Session} {rc : Bool}
    (h : wsCoreHandshakeRequest env line s = .ok (t, rc)) : TakesHandshake s t := by
  unfold wsCoreHandshakeRequest at h
  dsimp only at h
  repeat' split at h
  all_goals first
    | cases h; exact ⟨_, _, _, _, _, rfl⟩
    | exact handshakeOrigin_takes h
    | cases h

theorem TakesHandshake.kept {s t : Session} (h : TakesHandshake s t) : Kept.kept t = Kept.kept s := by
  obtain ⟨_, _, _, _, _, rfl⟩ := h
  rfl

theorem wsCoreHandshakeResponse_unsent {env : Env} {s t : Session} {rc : Bool}
    (h : wsCoreHandshakeResponse env s = .ok (t, rc)) : unsent t = unsent s := by
  unfold wsCoreHandshakeResponse at h
  split at h
  · cases h
  · dsimp only at h
    split at h
    · cases h
    · rename_i s₁ hadd
      have hs₁ := addStrings_unsent hadd
      split at h
      · cases h
      · rename_i s₂ hsend
        cases h
        exact (httpCoreSendPacket_unsent hsend).trans hs₁
      · rename_i s₂ hsend
        cases h
        exact (httpCoreSendPacket_unsent hsend).trans hs₁

theorem httpCoreCloseConnection_rests (env : Env) (s : Session) :
    Rests s (httpCoreCloseConnection env s) := by
  unfold httpCoreCloseConnection
  split
  · exact .inr ⟨.inr rfl, rfl⟩
  · exact .inl rfl

theorem dataSendLoop_rests {env : Env} {fuel : Nat} : ∀ {total opcode : Nat} {payLoad : Bytes}
    {s t : Session} {rc : Bool},
    dataSendLoop env fuel total opcode payLoad s = .ok (t, rc) → Rests s t := by
  induction fuel with
  | zero =>
    intro total opcode payLoad s t rc h
    cases h
    exact .inl rfl
  | succ fuel ih =>
    intro total opcode payLoad s t rc h
    unfold dataSendLoop at h
    split at h
    · cases h
    · split at h
      · cases h
      · rename_i s₁ hadd
        have hs₁ := addStrings_unsent hadd
        have hpacket : ∀ {s₂ rc₂}, wsSendPacket s₁ = .ok (s₂, rc₂) → unsent s₂ = unsent s := by
          intro s₂ rc₂ hsend
          unfold wsSendPacket at hsend
          split at hsend
          · cases hsend
          · rename_i s₃ rc₃ hpacket
            cases hsend
            exact (httpCoreSendPacket_unsent hpacket).trans hs₁
        split at h
        · cases h
        · rename_i s₂ hsend
          cases h
          exact .inl (hpacket hsend)
        · rename_i s₂ hsend
          have hs₂ := hpacket hsend
          split at h
          · cases h
            exact rests_of_unsent hs₂ (httpCoreCloseConnection_rests env s₂)
          · split at h
            · cases h
              exact .inl hs₂
            · exact rests_of_unsent hs₂ (ih h)

theorem wsCoreDataSend_rests {env : Env} {payLoad : HttpBlob} {opcode : Nat} {s t : Session}
    {rc : Bool} (h : wsCoreDataSend env payLoad opcode s = .ok (t, rc)) : Rests s t := by
  unfold wsCoreDataSend at h
  split at h
  · exact dataSendLoop_rests h
  · split at h
    · cases h
    · exact dataSendLoop_rests h

theorem copyPayload_unsent {s t : Session} {globRecvLen : Int} {data : HttpBlob}
    (h : copyPayload s globRecvLen data = .ok t) : unsent t = unsent s := by
  unfold copyPayload at h
  split at h
  · cases h
    rfl
  · cases h

theorem wsCoreDataDone_rests {env : Env} {s t : Session} {rc : Bool}
    (h : wsCoreDataDone env s = .ok (t, rc)) : Rests s t := by
  unfold wsCoreDataDone at h
  extract_lets ws payload s₁ at h
  have hs₁ : unsent s₁ = unsent s := rfl
  split at h
  · cases h
  · split at h
    · split at h
      · cases h
      · rename_i s₂ rc₂ hsend
        have hs₂ := rests_of_unsent hs₁ (wsCoreDataSend_rests hsend)
        cases h
        exact hs₂
    · cases h
      exact .inl hs₁

theorem wsCoreDataFrame_rests {env : Env} {data : HttpBlob} {s t : Session} {rc : Bool}
    (h : wsCoreDataFrame env data s = .ok (t, rc)) : Rests s t := by
  unfold wsCoreDataFrame at h
  split at h
  · cases h
  · extract_lets mask at h
    generalize readLength _ _ = r at h
    obtain ⟨length, data⟩ := r
    dsimp -zeta only at h
    extract_lets size s₁ data₁ at h
    have hs₁ : unsent s₁ = unsent s := rfl
    clear_value data₁
    split at h
    · cases h
      exact .inl rfl
    · split at h
      · cases h
      · rename_i s₂ hcopy
        have hs₂ := (copyPayload_unsent hcopy).trans hs₁
        split at h
        · cases h
          exact .inl hs₂
        · exact rests_of_unsent hs₂ (wsCoreDataDone_rests h)

theorem wsCoreDataRecv_rests {env : Env} {data : HttpBlob} {s t : Session} {rc : Bool}
    (h : wsCoreDataRecv env data s = .ok (t, rc)) : Rests s t := by
  unfold wsCoreDataRecv at h
  split at h
  · split at h
    · cases h
    · rename_i s₁ hcopy
      have hs₁ := copyPayload_unsent hcopy
      split at h
      · cases h
        exact .inl hs₁
      · exact rests_of_unsent hs₁ (wsCoreDataDone_rests h)
  · split at h
    · cases h
    · dsimp only at h
      split at h
      · split at h
        · cases h
        · split at h
          · cases h
          · rename_i s₁ rc₁ hsend
            cases h
            exact wsCoreDataSend_rests hsend
      · have hs := wsCoreDataFrame_rests h
        split at hs
        · exact rests_of_unsent rfl hs
        · exact hs

/-! ## A pass -/

/-- The method and the resource of the line at the beginning of a packet. -/
def requested (s : Session) (current : HttpBlob) : Option (Nat × Bytes) :=
  match httpCoreGetNextLine s current with
  | .ok (_, .line (some line) _) =>
    (methodLine line).map fun request => (request.1, request.2.2.bytes.map toLower)
  | _ => none

/-- What a request is answered with: a file and its handle, or an entry of `g_RestContent`. -/
inductive Found where
  | none
  | file (cFileName : Bytes) (fileHandle : Int)
  | resource (numResource : Nat)
deriving DecidableEq

/-- What the globals say that a connection is answered with. -/
def found (s : Session) : Found :=
  match s.handler with
  | .none => .none
  | .httpStatic => .file s.cFileName s.fileHandle
  | .httpDynamic => .resource s.numResource

/-- What a method line names: the file of that name if it can be opened, and otherwise the first
registered resource whose string is in it, if that one has the method. -/
def named (env : Env) (s : Session) (method : Nat) (resource : Bytes) : Found :=
  if 0 ≤ env.fsOpen s.opens (fileName resource) then
    .file (fileName resource) (env.fsOpen s.opens (fileName resource))
  else
    match findResource resource s.restContent 0 with
    | .error _ => .none
    | .ok i =>
      match s.restContent[i]? with
      | some (some entry) => if entry.restMethod = method then .resource i else .none
      | _ => .none

/-- A pass has taken a method line: what is found for the resource. -/
structure TakesMethod (env : Env) (s t : Session) (method : Nat) (resource : Bytes) : Prop where
  state : t.connectionState = .requestHeaders
  restContent : t.restContent = s.restContent
  found : t.handler = .httpStatic ∧ t.numResource = s.numResource ∧
      0 ≤ env.fsOpen s.opens (fileName resource) ∨
    t.handler ≠ .httpStatic ∧ env.fsOpen s.opens (fileName resource) < 0 ∧
      findResource resource s.restContent 0 = .ok t.numResource
  names : Kept.found t = named env s method resource

/-- A pass has taken none: a request that has not been taken is not there, and one that is there is
answered as before. -/
structure TakesNone (s t : Session) : Prop where
  leaves : Leaves s t
  waits : s.connectionState = .requestMethod → t.connectionState = .requestMethod

theorem initRequest_takes {env : Env} {resource : HttpBlob} {method : Nat} {s t : Session} {rc : Bool}
    (h : initRequest env resource method s = .ok (t, rc)) :
    TakesMethod env s t method (resource.bytes.map toLower) := by
  unfold initRequest httpStaticInitRequest at h
  split at h
  · cases h
  · split at h
    · cases h
    · rename_i s₁ hstatic
      split at hstatic
      · obtain ⟨rfl, hopen⟩ := Prod.mk.inj (Except.ok.inj hstatic)
        cases h
        have hopen : 0 ≤ env.fsOpen s.opens (fileName (resource.bytes.map toLower)) := by
          simpa using hopen
        exact ⟨rfl, rfl, .inl ⟨rfl, rfl, hopen⟩, (if_pos hopen).symm⟩
      · cases hstatic
    · rename_i s₁ hstatic
      split at hstatic
      · obtain ⟨rfl, hopen⟩ := Prod.mk.inj (Except.ok.inj hstatic)
        split at h
        · cases h
        · unfold httpDynamicInitRequest at h
          dsimp only at h
          split at h
          · cases h
          · rename_i hdynamic
            split at hdynamic
            · cases hdynamic
            · rename_i numResource hfind
              obtain ⟨rfl, rfl⟩ := Prod.mk.inj (Except.ok.inj hdynamic)
              cases h
              have hopen : env.fsOpen s.opens (fileName (resource.bytes.map toLower)) < 0 := by
                simpa using hopen
              refine ⟨rfl, rfl, .inr ⟨?_, hopen, hfind⟩, ?_⟩
              · dsimp only
                split_ifs <;> simp
              · unfold named found
                rw [if_neg (Int.not_le.2 hopen), hfind]
                dsimp only
                rcases s.restContent[numResource]? with _ | _ | entry
                · rfl
                · rfl
                · by_cases hsame : entry.restMethod = method
                  · simp [hsame]
                  · simp [hsame]
      · cases hstatic

theorem goOn_ok {current : HttpBlob} {r : Result} {t : Session} {next : Next}
    (h : goOn current r = .ok (t, next)) : ∃ rc, r = .ok (t, rc) := by
  unfold goOn at h
  split at h
  · cases h
  · cases h
    exact ⟨true, rfl⟩
  · cases h
    exact ⟨false, rfl⟩

theorem handleLine_cases {env : Env} {line : Option HttpBlob} {rest : HttpBlob} {s t : Session}
    {next : Next} (h : handleLine env line rest s = .ok (t, next)) :
    (s.connectionState = .requestMethod ∧ ∃ text request, line = some text ∧
        methodLine text = some request ∧
        TakesMethod env s t request.1 (request.2.2.bytes.map toLower)) ∨ TakesNone s t := by
  unfold handleLine at h
  split at h
  · rename_i hstate
    cases h
    exact .inr ⟨.inl rfl, fun hmethod => by simp [hstate] at hmethod⟩
  · rename_i hstate
    split at h
    · cases h
    · rename_i text
      split at h
      · cases h
      · obtain ⟨rc, hmethod⟩ := goOn_ok h
        unfold httpCoreHandleMethodLine at hmethod
        dsimp only at hmethod
        split at hmethod
        · cases hmethod
          exact .inr ⟨.inl rfl, fun _ => hstate⟩
        · rename_i method http11 resource hline
          have htakes := initRequest_takes hmethod
          exact .inl ⟨hstate, text, _, rfl, hline,
            ⟨htakes.state, htakes.restContent, htakes.found, htakes.names⟩⟩
  · rename_i hstate
    obtain ⟨rc, hheader⟩ := goOn_ok h
    exact .inr ⟨.inl (httpCoreHandleHeaderLine_kept hheader), fun hmethod => by simp [hstate] at hmethod⟩
  · rename_i hstate
    obtain ⟨rc, hrequest⟩ := goOn_ok h
    exact .inr ⟨.inl (wsCoreHandshakeRequest_takes hrequest).kept, fun hmethod => by simp [hstate] at hmethod⟩
  · cases h

theorem nextLine_cases {env : Env} {current : HttpBlob} {s t : Session} {next : Next}
    (h : nextLine env current s = .ok (t, next)) :
    (s.connectionState = .requestMethod ∧ ∃ method resource,
        requested s current = some (method, resource) ∧ TakesMethod env s t method resource) ∨
      TakesNone s t := by
  unfold nextLine at h
  split at h
  · cases h
    exact .inr ⟨.inl rfl, id⟩
  · have hnone : ∀ {s₁ next₁}, httpCoreGetNextLine s current = .ok (s₁, next₁) → TakesNone s s₁ := by
      intro s₁ next₁ hline
      obtain ⟨hglobals, hhandler, hstate⟩ := (httpCoreGetNextLine_takes hline).globals
      refine ⟨.inl (kept_of_globals hglobals hhandler), fun hmethod => ?_⟩
      rcases hstate with hstate | ⟨hother, -⟩
      · exact hstate.trans hmethod
      · exact absurd hmethod hother
    split at h
    · cases h
    · rename_i s₁ hline
      cases h
      exact .inr (hnone hline)
    · rename_i s₁ hline
      cases h
      exact .inr (hnone hline)
    · rename_i s₁ line rest hline
      obtain ⟨hglobals, hhandler, hstate⟩ := (httpCoreGetNextLine_takes hline).globals
      rcases handleLine_cases h with ⟨hmethod, text, request, rfl, hrequest, htakes⟩ | hnext
      · have hbefore : s.connectionState = .requestMethod := by
          rcases hstate with hstate | ⟨-, hdrop⟩
          · exact hstate.symm.trans hmethod
          · rw [hdrop] at hmethod
            cases hmethod
        refine .inl ⟨hbefore, request.1, request.2.2.bytes.map toLower, ?_, htakes.state, ?_, ?_, ?_⟩
        · unfold requested
          rw [hline]
          dsimp only
          rw [hrequest]
          rfl
        · rw [htakes.restContent, hglobals]
        · rw [← hglobals]
          exact htakes.found
        · unfold named
          rw [← hglobals]
          exact htakes.names
      · have hs₁ := hnone hline
        refine .inr ⟨leaves_of_kept (kept_of_globals hglobals hhandler) hnext.leaves, fun hmethod => ?_⟩
        exact hnext.waits (hs₁.waits hmethod)

theorem wsCoreHandshakeResponse_state {env : Env} {s t : Session} {rc : Bool}
    (h : wsCoreHandshakeResponse env s = .ok (t, rc)) :
    t.connectionState = s.connectionState ∨ t.connectionState = .webSocketDataRecv := by
  unfold wsCoreHandshakeResponse at h
  split at h
  · cases h
  · dsimp only at h
    split at h
    · cases h
    · rename_i s₁ hadd
      obtain ⟨packetSend, rfl⟩ := addStrings_changes hadd
      split at h
      · cases h
      · rename_i s₂ hsend
        obtain ⟨sends, sent, rfl⟩ := httpCoreSendPacket_changes hsend
        cases h
        exact .inl rfl
      · cases h
        exact .inr rfl

theorem wsCoreDataDone_true {env : Env} {s t : Session} {rc : Bool}
    (h : wsCoreDataDone env s = .ok (t, rc)) : rc = true := by
  unfold wsCoreDataDone at h
  extract_lets ws payload s₁ at h
  split at h
  · cases h
  · split at h
    · split at h
      · cases h
      · cases h
        rfl
    · cases h
      rfl

theorem wsCoreDataFrame_false {env : Env} {data : HttpBlob} {s t : Session}
    (h : wsCoreDataFrame env data s = .ok (t, false)) : ∃ webSock, t = { s with webSock := webSock } := by
  unfold wsCoreDataFrame at h
  split at h
  · cases h
  · extract_lets mask at h
    generalize readLength _ _ = r at h
    obtain ⟨length, data⟩ := r
    dsimp -zeta only at h
    extract_lets size s₁ data₁ at h
    clear_value data₁
    split at h
    · cases h
      exact ⟨_, rfl⟩
    · split at h
      · cases h
      · split at h
        · cases h
        · cases wsCoreDataDone_true h

theorem wsCoreDataRecv_false {env : Env} {data : HttpBlob} {s t : Session}
    (h : wsCoreDataRecv env data s = .ok (t, false)) :
    unsent t = unsent s ∧ t.connectionState = s.connectionState := by
  unfold wsCoreDataRecv at h
  split at h
  · split at h
    · cases h
    · split at h
      · cases h
      · cases wsCoreDataDone_true h
  · split at h
    · cases h
    · dsimp only at h
      split at h
      · split at h
        · cases h
        · split at h
          · cases h
          · cases h
      · obtain ⟨webSock, rfl⟩ := wsCoreDataFrame_false h
        split
        · exact ⟨rfl, rfl⟩
        · exact ⟨rfl, rfl⟩

theorem pass_cases {env : Env} {packet current : HttpBlob} {s t : Session} {next : Next}
    (h : Loop.pass env packet current s = .ok (t, next)) :
    (s.connectionState = .requestMethod ∧ ∃ method resource,
        requested s current = some (method, resource) ∧ TakesMethod env s t method resource) ∨
      s.connectionState ≠ .inactive ∧ TakesNone s t := by
  unfold Loop.pass at h
  split at h
  · rename_i hstate
    exact (nextLine_cases h).imp id fun hnone => ⟨by rw [hstate]; decide, hnone⟩
  · rename_i hstate
    exact (nextLine_cases h).imp id fun hnone => ⟨by rw [hstate]; decide, hnone⟩
  · rename_i hstate
    exact (nextLine_cases h).imp id fun hnone => ⟨by rw [hstate]; decide, hnone⟩
  · rename_i hstate
    exact (nextLine_cases h).imp id fun hnone => ⟨by rw [hstate]; decide, hnone⟩
  · rename_i hstate
    split at h
    · cases h
    · rename_i s₁ rc hresponse
      have hmethod : s₁.connectionState ≠ .requestMethod := by
        rcases wsCoreHandshakeResponse_state hresponse with hs₁ | hs₁
        · rw [hs₁, hstate]
          decide
        · rw [hs₁]
          decide
      rcases nextLine_cases h with ⟨hs₁, -⟩ | hnone
      · exact absurd hs₁ hmethod
      · exact .inr ⟨by rw [hstate]; decide,
          leaves_of_kept (kept_of_unsent (wsCoreHandshakeResponse_unsent hresponse)) hnone.leaves,
          fun hs => by rw [hstate] at hs; cases hs⟩
  · rename_i hstate
    split at h
    · cases h
    · rename_i s₁ hrecv
      cases h
      exact .inr ⟨by rw [hstate]; decide, (wsCoreDataRecv_rests hrecv).leaves,
        fun hs => by rw [hstate] at hs; cases hs⟩
    · rename_i s₁ hrecv
      obtain ⟨hunsent, hs₁⟩ := wsCoreDataRecv_false hrecv
      rcases nextLine_cases h with ⟨hmethod, -⟩ | hnone
      · rw [hs₁, hstate] at hmethod
        cases hmethod
      · exact .inr ⟨by rw [hstate]; decide, leaves_of_kept (kept_of_unsent hunsent) hnone.leaves,
          fun hs => by rw [hstate] at hs; cases hs⟩
  · rename_i hstate
    have hdata : ∀ {s₁ rest}, httpCoreHandleRequestData current s = .ok (s₁, rest) → TakesNone s s₁ :=
      fun hrest => ⟨.inl (httpCoreHandleRequestData_kept hrest), fun hs => by rw [hstate] at hs; cases hs⟩
    split at h
    · cases h
    · rename_i s₁ hrest
      cases h
      exact .inr ⟨by rw [hstate]; decide, hdata hrest⟩
    · rename_i s₁ rest hrest
      cases h
      exact .inr ⟨by rw [hstate]; decide, hdata hrest⟩
  · rename_i hmethod _ _ _ _ _ _
    obtain ⟨rc, hrespond⟩ := goOn_ok h
    refine .inr ⟨fun hstate => ?_, respond_leaves hrespond, fun hs => absurd hs hmethod⟩
    unfold respond at hrespond
    rw [hstate] at hrespond
    cases hrespond

end SimpleLink.Http.Kept
