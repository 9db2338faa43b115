import SimpleLink.Http.WebSocket

/-!
# The loop over a packet (`HttpCore_HandleRequestPacket`)

`pass` is one pass of the loop. What is left of the packet is what the next pass begins with.
-/

namespace SimpleLink.Http.Loop

open Strings Conn Response Handlers Requests WebSocket

inductive Next where
  /-- The loop goes on with what is left of the packet. -/
  | again (current : HttpBlob)
  /-- What `HttpCore_HandleRequestPacket` returns: the connection stays open or not. -/
  | returns (isOpen : Bool)

/-- What a function of the loop has left, when the loop is left if it fails. -/
def goOn (current : HttpBlob) : Result → Except Halt (Session × Next)
  | .error halt => .error halt
  | .ok (s, true) => .ok (s, .again current)
  | .ok (s, false) => .ok (s, .returns false)

def handleLine (env : Env) (line : Option HttpBlob) (rest : HttpBlob) (s : Session) :
    Except Halt (Session × Next) :=
  match s.connectionState with
  | .dropCurrentHeader => .ok ({ s with connectionState := .requestHeaders }, .again rest)
  | .requestMethod =>
    match line with
    | none => .error .assertion
    | some line =>
      if line.uLength = 0 then .error .assertion
      else goOn rest (httpCoreHandleMethodLine env line s)
  | .requestHeaders => goOn rest (httpCoreHandleHeaderLine line s)
  | .webSocketRequest => goOn rest (wsCoreHandshakeRequest env line s)
  | _ => .error .assertion

def nextLine (env : Env) (current : HttpBlob) (s : Session) : Except Halt (Session × Next) :=
  if current.uLength < 1 then .ok (s, .returns true)
  else
    match httpCoreGetNextLine s current with
    | .error halt => .error halt
    | .ok (s, .fail) => .ok (s, .returns false)
    | .ok (s, .wait) => .ok (s, .returns true)
    | .ok (s, .line line rest) => handleLine env line rest s

def pass (env : Env) (packet current : HttpBlob) (s : Session) : Except Halt (Session × Next) :=
  match s.connectionState with
  | .requestMethod => nextLine env current s
  | .requestHeaders => nextLine env current s
  | .dropCurrentHeader => nextLine env current s
  | .webSocketRequest => nextLine env current s
  | .webSocketResponse =>
    match wsCoreHandshakeResponse env s with
    | .error halt => .error halt
    | .ok (s, _) => nextLine env current s
  | .webSocketDataRecv =>
    match wsCoreDataRecv env packet s with
    | .error halt => .error halt
    | .ok (s, true) => .ok (s, .returns true)
    | .ok (s, false) => nextLine env current s
  | .requestData =>
    match httpCoreHandleRequestData current s with
    | .error halt => .error halt
    | .ok (s, none) => .ok (s, .returns true)
    | .ok (s, some rest) => .ok (s, .again rest)
  | _ => goOn current (respond env s)

end SimpleLink.Http.Loop
