import SimpleLink.Http.Handlers
import SimpleLink.Lib.Overwrite

/-!
# Requests (`HttpCore.c`)

The lines of a request and what is behind them. A blob that is read from is the memory from where it
points to, up to the end of the array that it is in. Of what `ToLower` does to a line in its place
only what is looked for in the line is followed.
-/

namespace SimpleLink.Http.Requests

open Lib Strings Conn Response Handlers

structure HttpBlob where
  mem : Bytes
  uLength : Nat

def HttpBlob.bytes (blob : HttpBlob) : Bytes := blob.mem.take blob.uLength

def HttpBlob.skip (blob : HttpBlob) (n : Nat) : HttpBlob :=
  ⟨blob.mem.drop n, (blob.uLength + 2 ^ 16 - n) % 2 ^ 16⟩

/-- What `recv` has put into the packet-receive buffer, which has been cleared before. -/
def receivedPacket (packet : Bytes) : HttpBlob :=
  ⟨packet ++ List.replicate (httpCoreMaxPacketSizeReceived - packet.length) 0, packet.length⟩

/-! ## Lines -/

inductive NextLine where
  /-- The whole packet was handled. -/
  | wait
  /-- The connection should be closed. -/
  | fail
  /-- A line, or none if it should be discarded, and what is behind it. -/
  | line (line : Option HttpBlob) (rest : HttpBlob)

/-- A part of a line is kept, or the line is discarded when it does not fit. -/
def saveLine (s : Session) (current : HttpBlob) : Session × NextLine :=
  if s.uSavedBufferSize + current.uLength < httpCoreMaxHeaderLineLength then
    ({ s with
      headerStart := overwrite s.headerStart s.uSavedBufferSize current.bytes
      uSavedBufferSize := s.uSavedBufferSize + current.uLength }, .wait)
  else if s.connectionState = .requestMethod then (s, .fail)
  else ({ s with uSavedBufferSize := 0, connectionState := .dropCurrentHeader }, .wait)

def endSavedLine (s : Session) (current : HttpBlob) (uLength : Nat) : Session × NextLine :=
  let rest := current.skip (uLength + httpHeaderDelimiter.length)
  if s.uSavedBufferSize + uLength < httpCoreMaxHeaderLineLength then
    let headerStart := overwrite s.headerStart s.uSavedBufferSize (current.mem.take uLength)
    ({ s with
      headerStart := headerStart
      uSavedBufferSize := 0 }, .line (some ⟨headerStart, s.uSavedBufferSize + uLength⟩) rest)
  else if s.connectionState = .requestMethod then (s, .fail)
  else (s, .line none rest)

def endLine (s : Session) (current : HttpBlob) (uLength : Nat) : Session × NextLine :=
  let rest := current.skip (uLength + httpHeaderDelimiter.length)
  if uLength < httpCoreMaxHeaderLineLength then (s, .line (some ⟨current.mem, uLength⟩) rest)
  else if s.connectionState = .requestMethod then (s, .fail)
  else ({ s with connectionState := .dropCurrentHeader }, .line none rest)

def splitDelimiter (s : Session) (current : HttpBlob) : Bool :=
  s.headerStart[s.uSavedBufferSize - 1]? = some 13 ∧ current.mem.head? = some 10

def httpCoreGetNextLine (s : Session) (current : HttpBlob) : Except Halt (Session × NextLine) :=
  let nextLocation := nextDelimiter httpHeaderDelimiter current.bytes
  if s.uSavedBufferSize > 0 then
    if splitDelimiter s current then
      if s.uSavedBufferSize + 1 < httpCoreMaxHeaderLineLength then
        let headerStart := overwrite s.headerStart (s.uSavedBufferSize + 1) [10]
        .ok ({ s with
          headerStart := headerStart
          uSavedBufferSize := 0 },
          .line (some ⟨headerStart, s.uSavedBufferSize - 1⟩) (current.skip 1))
      else .error .outOfBounds
    else
      match nextLocation with
      | none => .ok (saveLine s current)
      | some uLength => .ok (endSavedLine s current uLength)
  else
    match nextLocation with
    | none => .ok (saveLine s current)
    | some uLength => .ok (endLine s current uLength)

/-! ## The method line -/

/-- `HttpCore_HandleMethodLine`, once the method and the version have been found. -/
def initRequest (env : Env) (resource : HttpBlob) (method : Nat) (s : Session) : Result :=
  if resource.uLength > resource.mem.length ∧ 0 ∉ resource.mem then .error .outOfBounds
  else
    match httpStaticInitRequest env (resource.bytes.map toLower) s with
    | .error halt => .error halt
    | .ok (s, true) => .ok ({ s with handler := .httpStatic, connectionState := .requestHeaders }, true)
    | .ok (s, false) =>
      if resource.uLength ≥ resource.mem.length then .error .outOfBounds
      else
        match httpDynamicInitRequest (resource.bytes.map toLower) method s with
        | .error halt => .error halt
        | .ok (s, found) =>
          .ok ({ s with
            handler := if found then .httpDynamic else .none
            connectionState := .requestHeaders }, true)

/-- The method, whether the version is 1.1, and the resource. -/
def methodLine (line : HttpBlob) : Option (Nat × Bool × HttpBlob) :=
  let get := nextToken httpMethodGet line.bytes
  let method := if get = none then methodPost else methodGet
  if get ≠ some 0 ∧ nextToken httpMethodPost line.bytes ≠ some 0 then none
  else
    let uMethodLength := if get ≠ some 0 then httpMethodPost.length else httpMethodGet.length
    let resource (versionLocation : Nat) : HttpBlob :=
      ⟨line.mem.drop (uMethodLength + 1),
        (versionLocation + 2 ^ 16 - (uMethodLength + 1) - 1) % 2 ^ 16⟩
    match nextToken httpVersion1p1 line.bytes with
    | some versionLocation => some (method, true, resource versionLocation)
    | none =>
      match nextToken httpVersion1p0 line.bytes with
      | some versionLocation => some (method, false, resource versionLocation)
      | none => none

def httpCoreHandleMethodLine (env : Env) (line : HttpBlob) (s : Session) : Result :=
  let get := nextToken httpMethodGet line.bytes
  let s := { s with
    uFlags := { s.uFlags with methodPost := get ≠ some 0 }
    requestContent := if get = none then s.requestContent else 0 }
  match methodLine line with
  | none => .ok (s, false)
  | some (method, http11, resource) =>
    initRequest env resource method { s with uFlags := { s.uFlags with http11 := http11 } }

/-! ## The other lines -/

def startsWith (token : Bytes) (line : HttpBlob) : Bool := nextToken token line.bytes = some 0

/-- A token is looked for behind the name of a header. A blob that has become longer than the memory
that there is does not end. -/
def valueHas (token : Bytes) (value : HttpBlob) : Except Halt Bool :=
  if value.uLength < value.mem.length then .ok (nextToken token value.bytes).isSome
  else .error .outOfBounds

def httpCoreHandleHeaderLine (line : Option HttpBlob) (s : Session) : Result :=
  match line with
  | none => .ok (s, true)
  | some line =>
    if line.uLength = 0 then .ok ({ s with connectionState := .requestData }, true)
    else if startsWith wsUpgrade line then
      match valueHas wsWebsocket (line.skip (wsUpgrade.length + 1)) with
      | .error halt => .error halt
      | .ok true => .ok ({ s with connectionState := .webSocketRequest }, true)
      | .ok false => .ok (s, false)
    else if startsWith httpAcceptEncoding line then
      match valueHas httpGzip (line.skip (httpAcceptEncoding.length + 2)) with
      | .error halt => .error halt
      | .ok found => .ok ({ s with uFlags := { s.uFlags with acceptGzip := found } }, true)
    else if startsWith httpContentLength line then
      match atou (line.skip (httpContentLength.length + 2)).mem with
      | none => .error .outOfBounds
      | some length =>
        .ok ({ s with
          uContentLeft := length
          uFlags := { s.uFlags with
            contentIgnored := s.uFlags.contentIgnored || length > httpCoreMaxHeaderLineLength }
          requestContent := 0 }, true)
    else if startsWith httpConnectionClose line then
      match valueHas httpClose (line.skip (httpConnectionClose.length + 2)) with
      | .error halt => .error halt
      | .ok found => .ok ({ s with uFlags := { s.uFlags with close := found } }, true)
    else .ok (s, true)

/-! ## The content -/

/-- `HttpCore_HandleRequestData`: the rest of the packet, or none when it waits for more. -/
def httpCoreHandleRequestData (data : HttpBlob) (s : Session) :
    Except Halt (Session × Option HttpBlob) :=
  if s.uContentLeft = 0 then .ok ({ s with connectionState := .processing }, some data)
  else
    let uLengthToHandle := min s.uContentLeft data.uLength
    if uLengthToHandle = 0 then .ok (s, none)
    else if s.uFlags.contentIgnored then
      .ok ({ s with uContentLeft := s.uContentLeft - uLengthToHandle },
        some (data.skip uLengthToHandle))
    else if s.requestContent + uLengthToHandle ≤ httpCoreMaxHeaderLineLength then
      .ok ({ s with
        headerStart := overwrite s.headerStart s.requestContent (data.mem.take uLengthToHandle)
        uContentLeft := s.uContentLeft - uLengthToHandle
        requestContent := s.requestContent + uLengthToHandle }, some (data.skip uLengthToHandle))
    else .error .outOfBounds

end SimpleLink.Http.Requests
