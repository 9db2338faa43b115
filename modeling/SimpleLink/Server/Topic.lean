import Mathlib.Data.List.Basic
import Mathlib.Data.UInt

/-!
# Topic strings (`server_core.c`)

A topic comes as a buffer with its length. Before it is used as a C string it is
read or normalised: no wildcards and no NUL in a published topic, no empty levels
and no trailing `/` in any.
-/

namespace SimpleLink.Server

/-- `/`, `+` and `#`. -/
abbrev slash : UInt8 := 0x2F
abbrev plus : UInt8 := 0x2B
abbrev hash : UInt8 := 0x23

/-- `WBUF_LEN`. -/
abbrev wbufLen : Nat := 1024

def isWildcardChar (c : UInt8) : Bool := c == plus || c == hash

/-- `pub_topic_read`, with the check of its callers that something was read. -/
def pubTopicRead (topic : List UInt8) : Option (List UInt8) :=
  if wbufLen < topic.length + 1 then none
  else if topic.any fun c => isWildcardChar c || c == 0 then none
  else if topic = [] then none
  else some topic

/-- Drop every `/` that follows a `/`, `prev` being the character before. -/
def dropSlashes (prev : UInt8) : List UInt8 → List UInt8
  | [] => []
  | c :: buf => if c = slash ∧ prev = slash then dropSlashes c buf else c :: dropSlashes c buf

/-- `proc_forward_slash` of a buffer that is not empty. -/
def procForwardSlash : List UInt8 → List UInt8
  | [] => []
  | c :: buf =>
    let out := c :: dropSlashes c buf
    if out.length ≠ 1 ∧ out.getLast? = some slash then out.dropLast else out

example : procForwardSlash [slash, slash, 0x61, slash, slash, 0x62, slash] =
    [slash, 0x61, slash, 0x62] := by decide

end SimpleLink.Server
