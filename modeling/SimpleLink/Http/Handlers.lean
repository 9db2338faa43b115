import SimpleLink.Http.Response

/-!
# The modules that answer requests (`HttpStatic.c`, `HttpDynamic.c`)

`Http*_InitRequest` looks for the resource of a method line and leaves what it finds in the globals,
`Http*_ProcessRequest` answers from them. `respond` is what `HttpCore_HandleRequestPacket` does in
the states of a response.
-/

namespace SimpleLink.Http.Handlers

open Strings Conn Response

abbrev methodPost : Nat := 0
abbrev methodGet : Nat := 1

def cString (bytes : Bytes) : Bytes := bytes.takeWhile (· ≠ 0)

/-- The size of a `struct HttpBlob`. -/
abbrev sizeofHttpBlob : Nat := 8

/-! ## Static files -/

def fileName (resource : Bytes) : Bytes :=
  if resource = [47] then ascii "www/main.html" else ascii "www" ++ cString resource

def httpStaticInitRequest (env : Env) (resource : Bytes) (s : Session) :
    Except Halt (Session × Bool) :=
  if (fileName resource).length < fileNameSizeMax then
    let fileHandle := env.fsOpen s.opens (fileName resource)
    .ok ({ s with
      cFileName := fileName resource
      opens := s.opens + 1
      fileHandle := fileHandle }, ¬ fileHandle < 0)
  else .error .outOfBounds

/-- The loop that reads a file and sends it: what it leaves, and the result when it is left for
`end`. It runs once for each byte at most. -/
def readLoop (env : Env) : Nat → Nat → Nat → Bool → Session → Except Halt (Session × Option Bool)
  | 0, _, _, _, s => .ok (s, none)
  | fuel + 1, totalLength, offset, headerFlag, s =>
    if totalLength = 0 then .ok (s, none)
    else
      let uLength := if totalLength < 1000 then totalLength else 1000
      if ¬ env.malloc uLength then .ok (s, some false)
      else
        match env.fsRead s.fileHandle offset uLength with
        | none =>
          match httpResponseCannedError httpStatusErrorNotAccepted s with
          | .error halt => .error halt
          | .ok (s, rc) => .ok (s, some rc)
        | some content =>
          match if headerFlag then .ok (s, true)
            else httpResponseHeaders httpStatusOk false totalLength [] [] s with
          | .error halt => .error halt
          | .ok (s, false) => .ok (s, some false)
          | .ok (s, true) =>
            match httpResponseContent content.toList s with
            | .error halt => .error halt
            | .ok (s, false) => .ok (s, some false)
            | .ok (s, true) =>
              readLoop env fuel (totalLength - uLength) (offset + uLength) true s

def httpStaticProcessRequest (env : Env) (s : Session) : Result :=
  if ¬ env.malloc sizeofHttpBlob then .ok (s, false)
  else if s.uFlags.methodPost then httpResponseCannedError httpStatusErrorInternal s
  else
    let totalLength := (env.fileLen s.cFileName).toNat
    match readLoop env totalLength totalLength 0 false s with
    | .error halt => .error halt
    | .ok (s, some rc) => .ok (s, rc)
    | .ok (s, none) => .ok ({ s with closed := s.closed ++ [s.fileHandle] }, true)

/-! ## Dynamic resources -/

def setResources (method : Nat) (pBuf : Bytes) (pCbRestFunc : Nat) (s : Session) : Session × Bool :=
  if s.numResource < maxResource then
    ({ s with
      restContent := s.restContent.set s.numResource (some ⟨method, pBuf, pCbRestFunc⟩)
      numResource := s.numResource + 1 }, true)
  else (s, false)

/-- The first entry whose string is in the resource, from an entry on. An entry without a string is
used as one. -/
def findResource (resource : Bytes) : List (Option Resource) → Nat → Except Halt Nat
  | [], i => .ok i
  | none :: _, _ => .error .outOfBounds
  | some entry :: entries, i =>
    if (nextToken entry.resourceString resource).isSome then .ok i
    else findResource resource entries (i + 1)

def httpDynamicInitRequest (resource : Bytes) (method : Nat) (s : Session) : Result :=
  match findResource resource s.restContent 0 with
  | .error halt => .error halt
  | .ok numResource =>
    .ok ({ s with numResource := numResource },
      match s.restContent[numResource]? with
      | some (some entry) => entry.restMethod = method
      | _ => false)

def httpDynamicProcessRequest (env : Env) (s : Session) : Result :=
  match s.restContent[s.numResource]? with
  | some (some entry) =>
    let contentBody := cString (env.callback entry.pCbfunc)
    let uLength := contentBody.length % 2 ^ 16
    match httpResponseHeaders httpStatusOk false uLength [] [] s with
    | .error halt => .error halt
    | .ok (s, false) => .ok (s, false)
    | .ok (s, true) =>
      if uLength ≠ 0 then httpResponseContent (contentBody.take uLength) s else .ok (s, true)
  | _ => .error .outOfBounds

/-! ## The states of a response -/

/-- `HttpCore_ProcessNotFound`. -/
def httpCoreProcessNotFound (s : Session) : Except Halt Session :=
  match httpResponseCannedError httpStatusErrorNotFound s with
  | .error halt => .error halt
  | .ok (s, _) => .ok s

def httpCoreResetConnection (s : Session) : Session :=
  { s with
    uContentLeft := 0
    uSavedBufferSize := 0
    handler := .none
    requestContent := 0
    uFlags := .zero }

/-- The connection is closed after this request. -/
def closes (s : Session) : Bool := s.uFlags.close || !s.uFlags.http11

/-- The states from `Processing` on: what a pass of the loop leaves, and whether the loop goes on or
returns 0. -/
def respond (env : Env) (s : Session) : Result :=
  match s.connectionState with
  | .processing =>
    match s.handler with
    | .httpStatic => httpStaticProcessRequest env s
    | .httpDynamic => httpDynamicProcessRequest env s
    | .none =>
      match httpCoreProcessNotFound s with
      | .error halt => .error halt
      | .ok s => .ok (s, true)
  | .responseComplete =>
    if closes s then .ok (s, false)
    else .ok (httpCoreResetConnection { s with connectionState := .requestMethod }, true)
  | _ => .error .assertion

end SimpleLink.Http.Handlers
