import Mathlib.Data.List.Basic
import Mathlib.Data.UInt

/-!
# Strings (`HttpString.c`, `HttpHeaders.h`)

A blob that is searched is the list of its bytes, and a place that is found is how far it is from
the beginning.
-/

namespace SimpleLink.Http.Strings

abbrev Bytes : Type := List UInt8

def ascii (s : String) : Bytes := s.toList.map fun c => UInt8.ofNat c.toNat

def httpHeaderDelimiter : Bytes := [13, 10]

def httpMethodGet : Bytes := ascii "get"
def httpMethodPost : Bytes := ascii "post"
def httpVersion1p1 : Bytes := ascii "http/1.1"
def httpVersion1p0 : Bytes := ascii "http/1.0"

def httpContentType : Bytes := ascii "content-type"
def httpContentLength : Bytes := ascii "content-length"
def httpAcceptEncoding : Bytes := ascii "accept-encoding"
def httpConnectionClose : Bytes := ascii "connection"
def httpGzip : Bytes := ascii "gzip"
def httpClose : Bytes := ascii "close"
def httpLocation : Bytes := ascii "location"
def httpContentEncoding : Bytes := ascii "content-encoding"

def wsHost : Bytes := ascii "host"
def wsUpgrade : Bytes := ascii "upgrade"
def wsConnection : Bytes := ascii "connection"
def wsVersionRequest : Bytes := ascii "sec-websocket-version"
def wsKeyRequest : Bytes := ascii "sec-websocket-key"
def wsOrigin : Bytes := ascii "origin"
def wsCacheControl : Bytes := ascii "cache-control"
def wsPragma : Bytes := ascii "pragma"
def wsExtension : Bytes := ascii "sec-websocket-extensions"
def wsWebsocket : Bytes := ascii "websocket"
def wsMagicString : Bytes := ascii "258EAFA5-E914-47DA-95CA-C5AB0DC85B11"
def wsVersion : Bytes := ascii "13"
def wsAccept : Bytes := ascii "Sec-websocket-accept"
abbrev wsKeyLength : Nat := 24

def toLower (b : UInt8) : UInt8 := if 65 ≤ b ∧ b ≤ 90 then b + 32 else b

/-- `HttpString_nextDelimiter`. -/
def nextDelimiter (token : Bytes) : Bytes → Option Nat
  | [] => none
  | b :: bs =>
    if b = token.headD 0 ∧ token.isPrefixOf (b :: bs) then some 0
    else (nextDelimiter token bs).map (· + 1)

/-- `HttpString_nextToken`. -/
def nextToken (token blob : Bytes) : Option Nat := nextDelimiter token (blob.map toLower)

def digit (n : Nat) : UInt8 := UInt8.ofNat (48 + n % 10)

/-- The digits of a number from the right to the left, before those that are there already. -/
def utoaLoop : Nat → Nat → Bytes → Bytes
  | 0, _, done => done
  | fuel + 1, n, done => if n = 0 then done else utoaLoop fuel (n / 10) (digit n :: done)

/-- `HttpString_utoa`. A `UINT32` has ten digits at most. -/
def utoa (n : Nat) : Bytes := if n = 0 then [48] else utoaLoop 10 n []

def isSpace (b : UInt8) : Bool := b = 32 ∨ 9 ≤ b ∧ b ≤ 13

def isDigit (b : UInt8) : Bool := 48 ≤ b ∧ b ≤ 57

def decimal (digits : Bytes) : Nat := digits.foldl (fun n b => n * 10 + (b.toNat - 48)) 0

/-- `atoi`, as a `UINT32`, of a string that nothing ends but a byte that is no digit. -/
def atou (string : Bytes) : Option Nat :=
  let string := string.dropWhile isSpace
  let minus := string.head? = some 45
  let string := if minus ∨ string.head? = some 43 then string.tail else string
  if string.all isDigit then none
  else
    let n := decimal (string.takeWhile isDigit)
    some (if minus then (2 ^ 32 - min n (2 ^ 31)) % 2 ^ 32 else min n (2 ^ 31 - 1))

theorem length_utoaLoop (fuel n : Nat) (done : Bytes) :
    (utoaLoop fuel n done).length ≤ fuel + done.length := by
  induction fuel generalizing n done with
  | zero => exact Nat.le_add_left _ _
  | succ fuel ih =>
    unfold utoaLoop
    split
    · exact Nat.le_add_left _ _
    · refine Nat.le_trans (ih _ _) ?_
      rw [List.length_cons]
      omega

theorem length_utoa_le (n : Nat) : (utoa n).length ≤ 10 := by
  unfold utoa
  split
  · decide
  · exact length_utoaLoop 10 n []

end SimpleLink.Http.Strings
