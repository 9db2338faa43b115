import SimpleLink.Http.Conn

/-!
# Responses (`HttpCore.c`, `HttpResponse.h`)

`HttpResponse_Headers` and `HttpResponse_Content` with what they call, and a response as the client
takes it.
-/

namespace SimpleLink.Http.Response

open Strings Conn

abbrev slEagain : Int := -11

abbrev httpStatusOk : Nat := 200
abbrev httpStatusErrorNotFound : Nat := 404
abbrev httpStatusErrorNotAccepted : Nat := 406
abbrev httpStatusErrorInternal : Nat := 500

/-- What a function leaves, and whether it has succeeded. -/
abbrev Result : Type := Except Halt (Session × Bool)

/-! ## The socket -/

/-- `ClientSocketSend`: its result, what it has sent, and what later calls of `send` will give. When
there is nothing left, `send` answers `SL_EAGAIN` for ever. -/
def clientSocketSend (buffer : Bytes) : List Int → Except Halt (Int × Bytes × List Int)
  | [] => .error .again
  | sendLen :: sends =>
    if sendLen > 0 then
      .ok (if buffer.length ≠ sendLen then -1 else sendLen, buffer.take sendLen.toNat, sends)
    else if sendLen ≠ slEagain then .ok (-1, [], sends)
    else clientSocketSend buffer sends

/-- The loop of `HttpCore_SendPacket`, which runs once for each byte at most. -/
def sendLoop : Nat → Bytes → Session → Result
  | 0, _, s => .ok (s, true)
  | fuel + 1, buffer, s =>
    if buffer = [] then .ok (s, true)
    else
      match clientSocketSend (buffer.take httpCoreMaxPacketSizeSend) s.sends with
      | .error halt => .error halt
      | .ok (sent, out, sends) =>
        let s := { s with sends := sends, sent := s.sent ++ out }
        if sent ≤ 0 then .ok (s, false) else sendLoop fuel (buffer.drop sent.toNat) s

def httpCoreSendPacket (buffer : Bytes) (s : Session) : Result := sendLoop buffer.length buffer s

/-! ## Headers -/

/-- `HttpResponse_AddStringToResponseHeaders`. -/
def addString (s : Session) (str : Bytes) : Except Halt Session :=
  if s.packetSend.length + str.length ≤ httpCoreMaxPacketSizeSend then
    .ok { s with packetSend := s.packetSend ++ str }
  else .error .outOfBounds

/-- What `HttpResponse_AddHeaderLine` adds. -/
def headerLine (headerName headerValue : Bytes) : List Bytes :=
  [headerName, [58], [32], headerValue, httpHeaderDelimiter]

def httpStatusString : Nat → Option Bytes
  | 200 => some (ascii "ok")
  | 301 => some (ascii "moved permanently")
  | 302 => some (ascii "moved temporarily")
  | 401 => some (ascii "unauthorized")
  | 404 => some (ascii "not found")
  | 406 => some (ascii "not accepted")
  | 500 => some (ascii "internal server error")
  | _ => none

/-- What `HttpResponse_Headers` adds to the packet-send buffer. -/
def headerStrings (http11 : Bool) (uHttpStatus : Nat) (status : Bytes) (compressed : Bool)
    (uContentLength : Nat) (contentType location : Bytes) : List Bytes :=
  [if http11 then httpVersion1p1 else httpVersion1p0, [32], utoa uHttpStatus, [32], status,
    httpHeaderDelimiter] ++
  (if contentType ≠ [] then headerLine httpContentType contentType else []) ++
  (if uContentLength > 0 then headerLine httpContentLength (utoa uContentLength) else []) ++
  (if compressed then headerLine httpContentEncoding httpGzip else []) ++
  (if location ≠ [] then headerLine httpLocation location else []) ++
  [httpHeaderDelimiter]

def httpResponseHeaders (uHttpStatus : Nat) (compressed : Bool) (uContentLength : Nat)
    (contentType location : Bytes) (s : Session) : Result :=
  if s.packetSend ≠ [] ∨ s.connectionState ≠ .processing then .error .assertion
  else
    match httpStatusString uHttpStatus with
    | none => .error .assertion
    | some status =>
      match (headerStrings s.uFlags.http11 uHttpStatus status compressed uContentLength contentType
        location).foldlM addString s with
      | .error halt => .error halt
      | .ok s =>
        match httpCoreSendPacket s.packetSend { s with uContentLeft := uContentLength } with
        | .error halt => .error halt
        | .ok (s, false) => .ok (s, false)
        | .ok (s, true) =>
          .ok ({ s with
            packetSend := []
            connectionState := if uContentLength > 0 then .responseData else .responseComplete },
            true)

/-! ## Content -/

def httpResponseContent (content : Bytes) (s : Session) : Result :=
  if s.connectionState ≠ .responseData ∨ s.uContentLeft < content.length then .error .assertion
  else
    match httpCoreSendPacket content s with
    | .error halt => .error halt
    | .ok (s, false) => .ok (s, false)
    | .ok (s, true) =>
      let uContentLeft := s.uContentLeft - content.length
      .ok ({ s with
        uContentLeft := uContentLeft
        connectionState := if uContentLeft = 0 then .responseComplete else s.connectionState }, true)

def httpResponseCannedError (uHttpStatus : Nat) (s : Session) : Result :=
  match httpStatusString uHttpStatus with
  | none => .error .assertion
  | some status =>
    match httpResponseHeaders uHttpStatus false status.length [] [] s with
    | .error halt => .error halt
    | .ok (s, false) => .ok (s, false)
    | .ok (s, true) => httpResponseContent status s

/-! ## What is sent -/

/-- What a series of packets of these lengths comes to: whether all of them are sent, or none when
`send` answers `SL_EAGAIN` for ever. -/
def delivers : List Int → List Nat → Option (Bool × List Int)
  | sends, [] => some (true, sends)
  | [], _ :: _ => none
  | sendLen :: sends, len :: lens =>
    if sendLen = slEagain then delivers sends (len :: lens)
    else if sendLen = len then delivers sends lens
    else some (false, sends)

def packetLoop : Nat → Nat → List Nat
  | 0, _ => []
  | fuel + 1, n =>
    if n = 0 then []
    else min httpCoreMaxPacketSizeSend n :: packetLoop fuel (n - httpCoreMaxPacketSizeSend)

def packetLens (n : Nat) : List Nat := packetLoop n n

/-- `r` is what sending a blob gives. -/
def Sends (lens : List Nat) (buffer : Bytes) (s : Session) (r : Result) : Prop :=
  match delivers s.sends lens with
  | none => r = .error .again
  | some (true, sends) => r = .ok ({ s with sends := sends, sent := s.sent ++ buffer }, true)
  | some (false, sends) => ∃ out, out <+: buffer ∧
      r = .ok ({ s with sends := sends, sent := s.sent ++ out }, false)

theorem delivers_nil (sends : List Int) : delivers sends [] = some (true, sends) := by
  cases sends <;> rfl

theorem delivers_cons (sendLen : Int) (sends : List Int) (len : Nat) (lens : List Nat) :
    delivers (sendLen :: sends) (len :: lens) =
      if sendLen = slEagain then delivers sends (len :: lens)
      else if sendLen = len then delivers sends lens
      else some (false, sends) := rfl

theorem delivers_append (lens lens' : List Nat) (sends : List Int) :
    delivers sends (lens ++ lens') =
      match delivers sends lens with
      | none => none
      | some (true, sends) => delivers sends lens'
      | some (false, sends) => some (false, sends) := by
  induction sends generalizing lens with
  | nil => cases lens <;> rfl
  | cons sendLen sends ih =>
    cases lens with
    | nil => rfl
    | cons len lens =>
      rw [List.cons_append, delivers_cons, delivers_cons]
      split
      · exact ih (len :: lens)
      · split
        · exact ih lens
        · rfl

theorem clientSocketSend_cases {buffer : Bytes} (hne : buffer ≠ []) (sends : List Int) :
    match delivers sends [buffer.length] with
    | none => clientSocketSend buffer sends = .error .again
    | some (true, rest) => clientSocketSend buffer sends = .ok (buffer.length, buffer, rest)
    | some (false, rest) => ∃ out, out <+: buffer ∧
        clientSocketSend buffer sends = .ok (-1, out, rest) := by
  have hpos : 0 < buffer.length := List.length_pos_iff.2 hne
  induction sends with
  | nil => rfl
  | cons sendLen sends ih =>
    rw [delivers_cons]
    unfold clientSocketSend
    by_cases hagain : sendLen = slEagain
    · rw [if_pos hagain, if_neg (by rw [hagain]; decide), if_neg (not_not_intro hagain)]
      exact ih
    · rw [if_neg hagain]
      by_cases hlen : sendLen = buffer.length
      · rw [if_pos hlen, delivers_nil, if_pos (by omega), if_neg (not_not_intro hlen.symm), hlen,
          Int.toNat_natCast, List.take_length]
      · rw [if_neg hlen]
        by_cases hpos' : sendLen > 0
        · rw [if_pos hpos', if_pos (Ne.symm hlen)]
          exact ⟨_, List.take_prefix _ _, rfl⟩
        · rw [if_neg hpos', if_pos hagain]
          exact ⟨[], List.nil_prefix, rfl⟩

theorem sendLoop_sends {fuel : Nat} {buffer : Bytes} (hfuel : buffer.length ≤ fuel) (s : Session) :
    Sends (packetLoop fuel buffer.length) buffer s (sendLoop fuel buffer s) := by
  induction fuel generalizing buffer s with
  | zero =>
    obtain rfl : buffer = [] := List.length_eq_zero_iff.1 (Nat.le_zero.1 hfuel)
    unfold Sends packetLoop
    rw [delivers_nil, List.append_nil]
    rfl
  | succ fuel ih =>
    unfold packetLoop sendLoop
    by_cases hnil : buffer = []
    · rw [if_pos hnil, if_pos (List.length_eq_zero_iff.2 hnil)]
      unfold Sends
      rw [delivers_nil, hnil, List.append_nil]
    · have hpos : 0 < buffer.length := List.length_pos_iff.2 hnil
      have htake : (buffer.take httpCoreMaxPacketSizeSend).length =
          min httpCoreMaxPacketSizeSend buffer.length := List.length_take
      have hne : buffer.take httpCoreMaxPacketSizeSend ≠ [] := by
        refine List.ne_nil_of_length_pos ?_
        rw [htake]
        exact Nat.lt_min.2 ⟨by decide, hpos⟩
      have hcases := clientSocketSend_cases hne s.sends
      rw [if_neg hnil, if_neg (Nat.ne_of_gt hpos), ← List.singleton_append]
      unfold Sends
      rw [delivers_append]
      rw [htake] at hcases
      rcases hd : delivers s.sends [min httpCoreMaxPacketSizeSend buffer.length] with
        _ | ⟨_ | _, rest⟩
      · rw [hd] at hcases
        rw [hcases]
      · rw [hd] at hcases
        obtain ⟨out, hout, hsend⟩ := hcases
        rw [hsend]
        exact ⟨out, hout.trans (List.take_prefix _ _), rfl⟩
      · rw [hd] at hcases
        have hdrop : buffer.drop (min httpCoreMaxPacketSizeSend buffer.length) =
            buffer.drop httpCoreMaxPacketSizeSend := by
          rcases Nat.le_total httpCoreMaxPacketSizeSend buffer.length with h | h
          · rw [Nat.min_eq_left h]
          · rw [Nat.min_eq_right h, List.drop_length, List.drop_of_length_le h]
        have hsent : ¬ ((min httpCoreMaxPacketSizeSend buffer.length : Nat) : Int) ≤ 0 := by
          rw [← htake]
          exact Int.not_le.2 (Int.natCast_pos.2 (List.length_pos_iff.2 hne))
        have hrest := @ih (buffer.drop httpCoreMaxPacketSizeSend) (by
          rw [List.length_drop]
          omega) { s with
            sends := rest
            sent := s.sent ++ buffer.take httpCoreMaxPacketSizeSend }
        unfold Sends at hrest
        rw [List.length_drop] at hrest
        rw [hcases]
        dsimp only at hrest ⊢
        rw [if_neg hsent, Int.toNat_natCast, hdrop]
        rcases hd' : delivers rest (packetLoop fuel (buffer.length - httpCoreMaxPacketSizeSend)) with
          _ | ⟨_ | _, rest'⟩
        · rw [hd'] at hrest
          exact hrest
        · rw [hd'] at hrest
          obtain ⟨out, hout, hloop⟩ := hrest
          refine ⟨buffer.take httpCoreMaxPacketSizeSend ++ out, ?_, ?_⟩
          · have happend := (List.prefix_append_right_inj
              (buffer.take httpCoreMaxPacketSizeSend)).2 hout
            rwa [List.take_append_drop] at happend
          · rw [hloop, List.append_assoc]
        · rw [hd'] at hrest
          dsimp only at hrest ⊢
          rw [hrest, List.append_assoc, List.take_append_drop]

theorem httpCoreSendPacket_sends (buffer : Bytes) (s : Session) :
    Sends (packetLens buffer.length) buffer s (httpCoreSendPacket buffer s) :=
  sendLoop_sends (Nat.le_refl _) s

/-! ## A response -/

structure HttpResponse where
  http11 : Bool
  uHttpStatus : Nat
  status : Bytes
  contentLength : Option Nat
  body : Bytes
  known : httpStatusString uHttpStatus = some status

def headerText (http11 : Bool) (uHttpStatus : Nat) (status : Bytes) (uContentLength : Nat) : Bytes :=
  (headerStrings http11 uHttpStatus status false uContentLength [] []).flatten

def HttpResponse.render (r : HttpResponse) : Bytes :=
  (if r.http11 then httpVersion1p1 else httpVersion1p0) ++ [32] ++ utoa r.uHttpStatus ++ [32] ++
    r.status ++ httpHeaderDelimiter ++
    (match r.contentLength with
      | some n => httpContentLength ++ [58, 32] ++ utoa n ++ httpHeaderDelimiter
      | none => []) ++
    httpHeaderDelimiter ++ r.body

def declared (n : Nat) : Option Nat := if n > 0 then some n else none

theorem render_eq {uHttpStatus : Nat} {status : Bytes}
    (hstatus : httpStatusString uHttpStatus = some status) (http11 : Bool) (n : Nat) (body : Bytes) :
    (HttpResponse.mk http11 uHttpStatus status (declared n) body hstatus).render =
      headerText http11 uHttpStatus status n ++ body := by
  unfold HttpResponse.render headerText headerStrings declared headerLine
  by_cases hn : n > 0
  · simp [hn]
  · simp [hn]

theorem length_render {r : HttpResponse} {n : Nat} (h : r.contentLength = some n) :
    32 ≤ r.render.length := by
  have hversion : (if r.http11 then httpVersion1p1 else httpVersion1p0).length = 8 := by
    split <;> rfl
  have hlength : httpContentLength.length = 14 := rfl
  have hdelimiter : httpHeaderDelimiter.length = 2 := rfl
  unfold HttpResponse.render
  rw [h]
  simp only [List.length_append, hversion, hlength, hdelimiter, List.length_cons, List.length_nil]
  omega

theorem addStrings_eq {strs : List Bytes} {s : Session}
    (hs : s.packetSend.length ≤ httpCoreMaxPacketSizeSend) :
    strs.foldlM addString s = addString s strs.flatten := by
  induction strs generalizing s with
  | nil =>
    have hadd : addString s [] = .ok s := by
      unfold addString
      rw [List.append_nil]
      exact if_pos hs
    exact hadd.symm
  | cons str strs ih =>
    rw [List.foldlM_cons, List.flatten_cons]
    by_cases hfits : s.packetSend.length + str.length ≤ httpCoreMaxPacketSizeSend
    · have hadd : addString s str = .ok { s with packetSend := s.packetSend ++ str } := if_pos hfits
      have hlen : (s.packetSend ++ str).length ≤ httpCoreMaxPacketSizeSend := by
        rw [List.length_append]
        exact hfits
      rw [hadd]
      refine (ih (s := { s with packetSend := s.packetSend ++ str }) hlen).trans ?_
      unfold addString
      simp only [List.length_append, Nat.add_assoc, List.append_assoc]
    · have hadd : addString s str = .error .outOfBounds := if_neg hfits
      rw [hadd]
      unfold addString
      rw [List.length_append, if_neg fun h => hfits (Nat.le_trans (by omega) h)]
      rfl

theorem length_headerText_le {uHttpStatus : Nat} {status : Bytes}
    (hstatus : httpStatusString uHttpStatus = some status) (http11 : Bool) (n : Nat) :
    (headerText http11 uHttpStatus status n).length ≤ 80 := by
  have hlen : status.length ≤ 21 := by
    unfold httpStatusString at hstatus
    split at hstatus
    all_goals first
      | cases hstatus; decide
      | cases hstatus
  have hversion : (if http11 then httpVersion1p1 else httpVersion1p0).length = 8 := by
    split <;> rfl
  have hlength : httpContentLength.length = 14 := rfl
  have hdelimiter : httpHeaderDelimiter.length = 2 := rfl
  have hnumber := length_utoa_le uHttpStatus
  have hnumber' := length_utoa_le n
  unfold headerText headerStrings headerLine
  by_cases hn : n > 0
  · simp [hn, hversion, hlength, hdelimiter]
    omega
  · simp [hn, hversion, hdelimiter]
    omega

theorem headerText_pos (http11 : Bool) (uHttpStatus : Nat) (status : Bytes) (n : Nat) :
    0 < (headerText http11 uHttpStatus status n).length := by
  unfold headerText headerStrings
  simp only [List.flatten_append, List.length_append, List.flatten_singleton]
  exact Nat.add_pos_right _ (by decide)

theorem packetLens_short {n : Nat} (hpos : 0 < n) (hn : n ≤ httpCoreMaxPacketSizeSend) :
    packetLens n = [n] := by
  obtain ⟨n, rfl⟩ : ∃ m, n = m + 1 := ⟨n - 1, by omega⟩
  unfold packetLens packetLoop
  rw [if_neg (Nat.succ_ne_zero n), Nat.min_eq_right hn, Nat.sub_eq_zero_of_le hn]
  cases n <;> rfl

theorem httpResponseHeaders_cases {uHttpStatus : Nat} {status : Bytes}
    (hstatus : httpStatusString uHttpStatus = some status) (n : Nat) {s : Session}
    (hempty : s.packetSend = []) (hproc : s.connectionState = .processing) :
    match delivers s.sends [(headerText s.uFlags.http11 uHttpStatus status n).length] with
    | none => httpResponseHeaders uHttpStatus false n [] [] s = .error .again
    | some (true, sends) =>
      httpResponseHeaders uHttpStatus false n [] [] s = .ok ({ s with
        uContentLeft := n
        sends := sends
        sent := s.sent ++ headerText s.uFlags.http11 uHttpStatus status n
        connectionState := if n > 0 then .responseData else .responseComplete }, true)
    | some (false, sends) =>
      ∃ out, out <+: headerText s.uFlags.http11 uHttpStatus status n ∧
        httpResponseHeaders uHttpStatus false n [] [] s = .ok ({ s with
          uContentLeft := n
          packetSend := headerText s.uFlags.http11 uHttpStatus status n
          sends := sends
          sent := s.sent ++ out }, false) := by
  have hle := length_headerText_le hstatus s.uFlags.http11 n
  have hpos := headerText_pos s.uFlags.http11 uHttpStatus status n
  have hadd : (headerStrings s.uFlags.http11 uHttpStatus status false n [] []).foldlM addString s =
      .ok { s with packetSend := headerText s.uFlags.http11 uHttpStatus status n } := by
    rw [addStrings_eq (by rw [hempty]; exact Nat.zero_le _)]
    unfold addString
    rw [hempty, List.nil_append, List.length_nil, Nat.zero_add]
    exact if_pos (Nat.le_trans hle (by decide))
  have hsends := httpCoreSendPacket_sends (headerText s.uFlags.http11 uHttpStatus status n) { s with
    packetSend := headerText s.uFlags.http11 uHttpStatus status n
    uContentLeft := n }
  rw [packetLens_short hpos (Nat.le_trans hle (by decide))] at hsends
  unfold Sends at hsends
  unfold httpResponseHeaders
  rw [if_neg (by rw [hempty, hproc]; decide), hstatus]
  dsimp only at hsends ⊢
  rw [hadd]
  dsimp only
  rcases hd : delivers s.sends [(headerText s.uFlags.http11 uHttpStatus status n).length] with
    _ | ⟨_ | _, sends⟩
  · rw [hd] at hsends
    rw [hsends]
  · rw [hd] at hsends
    obtain ⟨out, hout, hsend⟩ := hsends
    rw [hsend]
    exact ⟨out, hout, rfl⟩
  · rw [hd] at hsends
    dsimp only at hsends
    rw [hsends, ← hempty]

theorem httpResponseContent_cases (content : Bytes) {s : Session}
    (hdata : s.connectionState = .responseData) (hleft : content.length ≤ s.uContentLeft) :
    match delivers s.sends (packetLens content.length) with
    | none => httpResponseContent content s = .error .again
    | some (true, sends) =>
      httpResponseContent content s = .ok ({ s with
        uContentLeft := s.uContentLeft - content.length
        sends := sends
        sent := s.sent ++ content
        connectionState :=
          if s.uContentLeft - content.length = 0 then .responseComplete else .responseData }, true)
    | some (false, sends) =>
      ∃ out, out <+: content ∧
        httpResponseContent content s = .ok ({ s with
          sends := sends
          sent := s.sent ++ out }, false) := by
  have hsends := httpCoreSendPacket_sends content s
  unfold Sends at hsends
  unfold httpResponseContent
  rw [if_neg (by rw [hdata]; simpa using hleft)]
  rcases hd : delivers s.sends (packetLens content.length) with _ | ⟨_ | _, sends⟩
  · rw [hd] at hsends
    rw [hsends]
  · rw [hd] at hsends
    obtain ⟨out, hout, hsend⟩ := hsends
    rw [hsend]
    exact ⟨out, hout, rfl⟩
  · rw [hd] at hsends
    dsimp only at hsends
    rw [hsends, ← hdata]

theorem httpResponseHeaders_busy {uHttpStatus n : Nat} {s : Session} (h : s.packetSend ≠ []) :
    httpResponseHeaders uHttpStatus false n [] [] s = .error .assertion :=
  if_pos (.inl h)

theorem httpResponseHeaders_data {uHttpStatus n : Nat} {s : Session}
    (h : s.connectionState = .responseData) :
    httpResponseHeaders uHttpStatus false n [] [] s = .error .assertion :=
  if_pos (.inr (by rw [h]; decide))

theorem httpResponseCannedError_error {uHttpStatus : Nat} {s : Session}
    (h : ∀ n, httpResponseHeaders uHttpStatus false n [] [] s = .error .assertion) :
    httpResponseCannedError uHttpStatus s = .error .assertion := by
  unfold httpResponseCannedError
  split
  · rfl
  · rw [h]

/-- When it is not sent as a whole, the connection is left in a state that is not the one of a
request. -/
theorem httpResponseCannedError_cases {uHttpStatus : Nat} {status : Bytes}
    (hstatus : httpStatusString uHttpStatus = some status) (hpos : 0 < status.length)
    (hshort : status.length ≤ httpCoreMaxPacketSizeSend) {s : Session} (hempty : s.packetSend = [])
    (hproc : s.connectionState = .processing) :
    match delivers s.sends
      [(headerText s.uFlags.http11 uHttpStatus status status.length).length, status.length] with
    | none => httpResponseCannedError uHttpStatus s = .error .again
    | some (true, sends) =>
      httpResponseCannedError uHttpStatus s = .ok ({ s with
        uContentLeft := 0
        sends := sends
        sent := s.sent ++ (headerText s.uFlags.http11 uHttpStatus status status.length ++ status)
        connectionState := .responseComplete }, true)
    | some (false, _) =>
      ∃ s', httpResponseCannedError uHttpStatus s = .ok (s', false) ∧ s'.closed = s.closed ∧
        s'.handler = s.handler ∧
        (s'.connectionState = .processing ∧ s'.packetSend ≠ [] ∨
          s'.connectionState = .responseData) := by
  have hheaders := httpResponseHeaders_cases hstatus status.length hempty hproc
  rw [← List.singleton_append, delivers_append]
  unfold httpResponseCannedError
  rw [hstatus]
  dsimp only
  rcases hd : delivers s.sends
    [(headerText s.uFlags.http11 uHttpStatus status status.length).length] with _ | ⟨_ | _, sends⟩
  · rw [hd] at hheaders
    rw [hheaders]
  · rw [hd] at hheaders
    obtain ⟨out, -, hheaders⟩ := hheaders
    rw [hheaders]
    refine ⟨_, rfl, rfl, rfl, .inl ⟨hproc, ?_⟩⟩
    exact List.ne_nil_of_length_pos (headerText_pos _ _ _ _)
  · rw [hd] at hheaders
    dsimp only at hheaders ⊢
    rw [hheaders, if_pos hpos]
    dsimp only
    have hcontent := httpResponseContent_cases status (s := { s with
      uContentLeft := status.length
      sends := sends
      sent := s.sent ++ headerText s.uFlags.http11 uHttpStatus status status.length
      connectionState := .responseData }) rfl (Nat.le_refl _)
    rw [packetLens_short hpos hshort] at hcontent
    dsimp only at hcontent
    rcases hd' : delivers sends [status.length] with _ | ⟨_ | _, sends'⟩
    · rw [hd'] at hcontent
      exact hcontent
    · rw [hd'] at hcontent
      obtain ⟨out, -, hcontent⟩ := hcontent
      exact ⟨_, hcontent, rfl, rfl, .inr rfl⟩
    · rw [hd'] at hcontent
      dsimp only at hcontent ⊢
      rw [hcontent, Nat.sub_self, if_pos rfl, List.append_assoc]

end SimpleLink.Http.Response
