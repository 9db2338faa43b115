import SimpleLink.Http.Progress
import SimpleLink.Http.Requests
import SimpleLink.Lib.FindToken

/-!
# The method line (`HttpCore.c`)

What `HttpCore_HandleMethodLine` makes of a line, and what the line says. `ToLower` works on the memory
that the line is in.
-/

namespace SimpleLink.Http.MethodLine

open Lib Strings Conn Response Handlers Requests

/-! ## The line in memory -/

/-- The loop of `ToLower`. -/
def lowerLoop : (count : Nat) → (i : Nat) → Bytes → Except Halt Bytes
  | 0, _, str => .ok str
  | count + 1, i, str =>
    match str[i]? with
    | none => .error .outOfBounds
    | some b => lowerLoop count (i + 1) (str.set i (toLower b))

/-- `ToLower` goes up to the byte at `len`. -/
def lower (str : Bytes) (len : Nat) : Except Halt Bytes := lowerLoop (len + 1) 0 str

/-- `HttpString_nextToken` with what it leaves in the memory of the blob. -/
def readToken (token : Bytes) (blob : HttpBlob) : Except Halt (HttpBlob × Option Nat) :=
  match lower blob.mem blob.uLength with
  | .error halt => .error halt
  | .ok mem => .ok (⟨mem, blob.uLength⟩, nextDelimiter token (mem.take blob.uLength))

def readMethod (line : HttpBlob) : Except Halt (HttpBlob × Option (Nat × Nat)) :=
  match readToken httpMethodGet line with
  | .error halt => .error halt
  | .ok (line, get) =>
    let method := if get = none then methodPost else methodGet
    let uMethodLength := if get = none then httpMethodPost.length else httpMethodGet.length
    match if get = none then readToken httpMethodPost line else .ok (line, get) with
    | .error halt => .error halt
    | .ok (line, methodLocation) =>
      if methodLocation ≠ some 0 then
        match readToken httpMethodPost line with
        | .error halt => .error halt
        | .ok (line, methodLocation) =>
          .ok (line, if methodLocation ≠ some 0 then none else some (method, httpMethodPost.length))
      else .ok (line, some (method, uMethodLength))

def readVersion (line : HttpBlob) : Except Halt (HttpBlob × Option (Bool × Nat)) :=
  match readToken httpVersion1p1 line with
  | .error halt => .error halt
  | .ok (line, some versionLocation) => .ok (line, some (true, versionLocation))
  | .ok (line, none) =>
    match readToken httpVersion1p0 line with
    | .error halt => .error halt
    | .ok (line, versionLocation) => .ok (line, versionLocation.map (false, ·))

/-- What `HttpCore_HandleMethodLine` finds in the line, and what the line is then. -/
def readMethodLine (line : HttpBlob) : Except Halt (HttpBlob × Option (Nat × Bool × HttpBlob)) :=
  match readMethod line with
  | .error halt => .error halt
  | .ok (line, none) => .ok (line, none)
  | .ok (line, some (method, uMethodLength)) =>
    match readVersion line with
    | .error halt => .error halt
    | .ok (line, none) => .ok (line, none)
    | .ok (line, some (http11, versionLocation)) =>
      .ok (line, some (method, http11, ⟨line.mem.drop (uMethodLength + 1),
        (versionLocation + 2 ^ 16 - (uMethodLength + 1) - 1) % 2 ^ 16⟩))

/-- The line after `ToLower`. -/
def lowered (line : HttpBlob) : HttpBlob :=
  ⟨(line.mem.take (line.uLength + 1)).map toLower ++ line.mem.drop (line.uLength + 1), line.uLength⟩

theorem lowerLoop_cons (count : Nat) (done str : Bytes) (b : UInt8) :
    lowerLoop (count + 1) done.length (done ++ b :: str) =
      lowerLoop count (done ++ [toLower b]).length ((done ++ [toLower b]) ++ str) := by
  have hget : (done ++ b :: str)[done.length]? = some b := by simp
  have hset : (done ++ b :: str).set done.length (toLower b) = (done ++ [toLower b]) ++ str := by simp
  have hlen : done.length + 1 = (done ++ [toLower b]).length := by simp
  rw [lowerLoop, hget]
  dsimp only
  rw [hset, hlen]

theorem lowerLoop_error {count : Nat} {done str : Bytes} (h : str.length < count) :
    lowerLoop count done.length (done ++ str) = .error .outOfBounds := by
  induction count generalizing done str with
  | zero => cases h
  | succ count ih =>
    cases str with
    | nil =>
      have hget : (done ++ [] : Bytes)[done.length]? = none := by simp
      rw [lowerLoop, hget]
    | cons b str =>
      rw [lowerLoop_cons]
      exact ih (by simpa using h)

theorem lowerLoop_ok {count : Nat} {done str : Bytes} (h : count ≤ str.length) :
    lowerLoop count done.length (done ++ str) =
      .ok (done ++ ((str.take count).map toLower ++ str.drop count)) := by
  induction count generalizing done str with
  | zero => rfl
  | succ count ih =>
    cases str with
    | nil => cases h
    | cons b str =>
      rw [lowerLoop_cons, ih (Nat.le_of_succ_le_succ h), List.append_assoc]
      rfl

/-- With no byte behind the line `ToLower` goes out of the memory. -/
theorem lower_error {line : HttpBlob} (h : line.mem.length ≤ line.uLength) :
    lower line.mem line.uLength = .error .outOfBounds :=
  @lowerLoop_error (line.uLength + 1) [] line.mem (Nat.lt_succ_of_le h)

/-- With one, it makes the line and that byte small. -/
theorem lower_ok {line : HttpBlob} (h : line.uLength < line.mem.length) :
    lower line.mem line.uLength = .ok (lowered line).mem :=
  @lowerLoop_ok (line.uLength + 1) [] line.mem h

theorem toNat_upper {b : UInt8} (h : 65 ≤ b ∧ b ≤ 90) :
    65 ≤ b.toNat ∧ b.toNat ≤ 90 ∧ (b + 32).toNat = b.toNat + 32 := by
  rw [UInt8.le_iff_toNat_le, UInt8.le_iff_toNat_le] at h
  have h90 : b.toNat ≤ 90 := h.2
  refine ⟨h.1, h90, ?_⟩
  rw [UInt8.toNat_add]
  exact Nat.mod_eq_of_lt (Nat.lt_of_le_of_lt (Nat.add_le_add_right h90 32) (by decide))

theorem toLower_toLower (b : UInt8) : toLower (toLower b) = toLower b := by
  unfold toLower
  split
  · rename_i h
    obtain ⟨h65, -, hsum⟩ := toNat_upper h
    refine if_neg fun h' => ?_
    obtain ⟨-, h90, -⟩ := toNat_upper h'
    omega
  · rfl

theorem map_toLower_toLower (bytes : Bytes) :
    (bytes.map toLower).map toLower = bytes.map toLower := by
  rw [List.map_map]
  exact List.map_congr_left fun b _ => toLower_toLower b

theorem take_lowered (line : HttpBlob) :
    (lowered line).mem.take (line.uLength + 1) = (line.mem.take (line.uLength + 1)).map toLower := by
  unfold lowered
  dsimp only
  by_cases h : line.uLength + 1 ≤ line.mem.length
  · rw [List.take_left' (by rw [List.length_map, List.length_take, Nat.min_eq_left h])]
  · rw [List.drop_eq_nil_of_le (by omega), List.append_nil, ← List.map_take, List.take_take,
      Nat.min_self]

theorem lowered_bytes (line : HttpBlob) : (lowered line).bytes = line.bytes.map toLower := by
  have htake : ∀ mem : Bytes, mem.take line.uLength = (mem.take (line.uLength + 1)).take line.uLength := by
    intro mem
    rw [List.take_take, Nat.min_eq_left (Nat.le_succ _)]
  show (lowered line).mem.take line.uLength = _
  rw [htake, take_lowered, ← List.map_take, ← htake]
  rfl

theorem nextToken_lowered (token : Bytes) (line : HttpBlob) :
    nextToken token (lowered line).bytes = nextToken token line.bytes := by
  rw [nextToken, lowered_bytes, map_toLower_toLower, nextToken]

theorem lowered_lowered {line : HttpBlob} (h : line.uLength < line.mem.length) :
    lowered (lowered line) = lowered line := by
  have hdrop : (lowered line).mem.drop (line.uLength + 1) = line.mem.drop (line.uLength + 1) := by
    unfold lowered
    exact List.drop_left' (by rw [List.length_map, List.length_take, Nat.min_eq_left h])
  show HttpBlob.mk (((lowered line).mem.take (line.uLength + 1)).map toLower ++
    (lowered line).mem.drop (line.uLength + 1)) line.uLength = lowered line
  rw [take_lowered, map_toLower_toLower, hdrop]
  rfl

theorem readToken_ok (token : Bytes) {line : HttpBlob} (h : line.uLength < line.mem.length) :
    readToken token line = .ok (lowered line, nextToken token line.bytes) := by
  rw [readToken, lower_ok h, nextToken, ← lowered_bytes]
  rfl

/-- With a byte behind the line, what is read in memory is what `methodLine` says of the small line. -/
theorem readMethodLine_eq {line : HttpBlob} (h : line.uLength < line.mem.length) :
    readMethodLine line = .ok (lowered line, methodLine (lowered line)) := by
  have hlen : (lowered line).uLength < (lowered line).mem.length := by
    unfold lowered
    dsimp only
    rw [List.length_append, List.length_map, List.length_take, List.length_drop]
    omega
  have hread : ∀ token, readToken token (lowered line) =
      .ok (lowered line, nextToken token line.bytes) := by
    intro token
    rw [readToken_ok token hlen, lowered_lowered h, nextToken_lowered]
  unfold readMethodLine readMethod readVersion methodLine
  simp only [readToken_ok _ h, nextToken_lowered]
  cases h11 : nextToken httpVersion1p1 line.bytes <;> cases h10 : nextToken httpVersion1p0 line.bytes <;>
    by_cases hpost : nextToken httpMethodPost line.bytes = some 0 <;>
    cases hget : nextToken httpMethodGet line.bytes with
  | none => simp [hread, hpost, h11, h10]
  | some k => by_cases hk : k = 0 <;> simp [hread, hk, hpost, h11, h10]

theorem readMethodLine_error {line : HttpBlob} (h : line.mem.length ≤ line.uLength) :
    readMethodLine line = .error .outOfBounds := by
  rw [readMethodLine, readMethod, readToken, lower_error h]

/-! ## What the handlers are given -/

/-- What `HttpCore_HandleMethodLine` has set in the connection before it asks the handlers, and the method
and the resource that it asks them for. -/
def methodRequest (line : HttpBlob) (s : Session) : Session × Option (Nat × HttpBlob) :=
  let get := nextToken httpMethodGet line.bytes
  let s := { s with
    uFlags := { s.uFlags with methodPost := get ≠ some 0 }
    requestContent := if get = none then s.requestContent else 0 }
  match methodLine line with
  | none => (s, none)
  | some (method, http11, resource) =>
    ({ s with uFlags := { s.uFlags with http11 := http11 } }, some (method, resource))

theorem httpCoreHandleMethodLine_eq (env : Env) (line : HttpBlob) (s : Session) :
    httpCoreHandleMethodLine env line s =
      match (methodRequest line s).2 with
      | none => .ok ((methodRequest line s).1, false)
      | some (method, resource) => initRequest env resource method (methodRequest line s).1 := by
  unfold httpCoreHandleMethodLine methodRequest
  cases methodLine line with
  | none => rfl
  | some request => rfl

/-! ## What the line says -/

def methodName (post : Bool) : Bytes := if post then httpMethodPost else httpMethodGet
def versionName (http11 : Bool) : Bytes := if http11 then httpVersion1p1 else httpVersion1p0

/-- The line is a method, a space, a resource, a space and a version. -/
def IsMethodLine (line : Bytes) (post http11 : Bool) (resource : Bytes) : Prop :=
  ∃ method version, line = method ++ 32 :: (resource ++ 32 :: version) ∧
    method.map toLower = methodName post ∧ version.map toLower = versionName http11

/-- The line is taken for what it is, and the handlers are asked for what it says. -/
structure Agrees (line : HttpBlob) (s : Session) : Prop where
  succeeds : (methodRequest (lowered line) s).2.isSome ↔
    ∃ post http11 resource, IsMethodLine line.bytes post http11 resource
  hands : ∀ {post http11 resource}, IsMethodLine line.bytes post http11 resource →
    ∀ {method blob}, (methodRequest (lowered line) s).2 = some (method, blob) →
      method = (if post then methodPost else methodGet) ∧ blob.bytes = resource ∧
      (methodRequest (lowered line) s).1.uFlags.methodPost = post ∧
      (methodRequest (lowered line) s).1.uFlags.http11 = http11

/-- The resource has no capital letter, none of the versions that is looked for before the one of the line
or with it, and in a line with POST no "get". What is no method line does not begin with a method or has
no version. -/
structure Regular (line : Bytes) : Prop where
  lower : ∀ {post http11 resource}, IsMethodLine line post http11 resource →
    resource.map toLower = resource
  get : ∀ {http11 resource}, IsMethodLine line true http11 resource →
    ¬ httpMethodGet <:+: resource.map toLower
  version11 : ∀ {post http11 resource}, IsMethodLine line post http11 resource →
    ¬ httpVersion1p1 <:+: resource.map toLower
  version10 : ∀ {post resource}, IsMethodLine line post false resource →
    ¬ httpVersion1p0 <:+: resource.map toLower
  other : (¬ ∃ post http11 resource, IsMethodLine line post http11 resource) →
    ¬ ((httpMethodGet <+: line.map toLower ∨ httpMethodPost <+: line.map toLower) ∧
      (httpVersion1p1 <:+: line.map toLower ∨ httpVersion1p0 <:+: line.map toLower))

/-! ## Tokens in a line -/

theorem nextDelimiter_eq {token : Bytes} (htoken : token ≠ []) (bytes : Bytes) :
    nextDelimiter token bytes = findToken token bytes := by
  induction bytes with
  | nil => rfl
  | cons b bytes ih =>
    rw [nextDelimiter, findToken, ih]
    cases token with
    | nil => exact absurd rfl htoken
    | cons t token =>
      refine if_congr (and_iff_right_of_imp fun h => ?_) rfl rfl
      exact (List.cons_prefix_cons.1 (List.isPrefixOf_iff_prefix.1 h)).1.symm

theorem nextToken_eq {token : Bytes} (htoken : token ≠ []) (bytes : Bytes) :
    nextToken token bytes = findToken token (bytes.map toLower) := nextDelimiter_eq htoken _

theorem nextToken_eq_zero {token : Bytes} (htoken : token ≠ []) {bytes : Bytes} :
    nextToken token bytes = some 0 ↔ token <+: bytes.map toLower := by
  rw [nextToken_eq htoken, findToken_eq_zero htoken]

theorem nextToken_eq_none {token : Bytes} (htoken : token ≠ []) {bytes : Bytes} :
    nextToken token bytes = none ↔ ¬ token <:+: bytes.map toLower := by
  rw [nextToken_eq htoken, findToken_eq_none htoken]

theorem nextToken_isSome {token : Bytes} (htoken : token ≠ []) {bytes : Bytes} :
    (nextToken token bytes).isSome ↔ token <:+: bytes.map toLower := by
  rw [nextToken_eq htoken, findToken_isSome htoken]

theorem get_ne_nil : httpMethodGet ≠ [] := by decide

theorem post_ne_nil : httpMethodPost ≠ [] := by decide

theorem versionName_ne_nil (http11 : Bool) : versionName http11 ≠ [] := by cases http11 <;> decide

theorem space_not_mem_methodName (post : Bool) : 32 ∉ methodName post := by cases post <;> decide

theorem space_not_mem_versionName (http11 : Bool) : 32 ∉ versionName http11 := by
  cases http11 <;> decide

theorem length_versionName (http11 : Bool) : (versionName http11).length = 8 := by
  cases http11 <;> decide

theorem not_versionName_infix_methodName (http11 post : Bool) :
    ¬ versionName http11 <:+: methodName post := by
  cases http11 <;> cases post <;> decide

theorem findToken_versionName (http11 http11' : Bool) :
    findToken (versionName http11) (versionName http11') = if http11 = http11' then some 0 else none := by
  cases http11 <;> cases http11' <;> decide

section Line

variable {line : Bytes} {post http11 : Bool} {resource : Bytes}
  (h : IsMethodLine line post http11 resource)

include h

theorem map_methodLine :
    line.map toLower = methodName post ++ 32 :: (resource.map toLower ++ 32 :: versionName http11) := by
  obtain ⟨method, version, rfl, hmethod, hversion⟩ := h
  rw [List.map_append, List.map_cons, List.map_append, List.map_cons, hmethod, hversion]
  rfl

theorem length_methodLine :
    line.length = (methodName post).length + resource.length + 10 := by
  have hlen := congrArg List.length (map_methodLine h)
  rw [List.length_map, List.length_append, List.length_cons, List.length_append, List.length_cons,
    List.length_map, length_versionName] at hlen
  omega

theorem methodName_isPrefix : methodName post <+: line.map toLower := by
  rw [map_methodLine h]
  exact List.prefix_append ..

theorem nextToken_version (version : Bool) (hno : ¬ versionName version <:+: resource.map toLower) :
    nextToken (versionName version) line =
      if version = http11 then some ((methodName post).length + resource.length + 2) else none := by
  have hspace := space_not_mem_versionName version
  rw [nextToken_eq (versionName_ne_nil version), map_methodLine h,
    findToken_append_cons hspace (not_versionName_infix_methodName version post),
    findToken_append_cons hspace hno, findToken_versionName]
  split
  · rw [Option.map_some, Option.map_some, List.length_map]
    congr 1
    omega
  · rfl

theorem nextToken_version_early (version : Bool)
    (hin : versionName version <:+: resource.map toLower) :
    ∃ n, nextToken (versionName version) line = some n ∧ (methodName post).length < n ∧
      n ≤ (methodName post).length + resource.length := by
  obtain ⟨j, hj⟩ := Option.isSome_iff_exists.1 ((findToken_isSome (versionName_ne_nil version)).2 hin)
  have hle := findToken_add_le hj
  rw [length_versionName, List.length_map] at hle
  refine ⟨j + ((methodName post).length + 1), ?_, by omega, by omega⟩
  rw [nextToken_eq (versionName_ne_nil version), map_methodLine h,
    findToken_append_cons (space_not_mem_versionName version)
      (not_versionName_infix_methodName version post), findToken_append hj]
  rfl

end Line

theorem nextToken_get {line : Bytes} {http11 : Bool} {resource : Bytes}
    (h : IsMethodLine line false http11 resource) : nextToken httpMethodGet line = some 0 :=
  (nextToken_eq_zero get_ne_nil).2 (methodName_isPrefix h)

section Post

variable {line : Bytes} {http11 : Bool} {resource : Bytes}
  (h : IsMethodLine line true http11 resource)

include h

theorem nextToken_post : nextToken httpMethodPost line = some 0 :=
  (nextToken_eq_zero post_ne_nil).2 (methodName_isPrefix h)

theorem nextToken_post_get : nextToken httpMethodGet line ≠ some 0 := by
  rw [Ne, nextToken_eq_zero get_ne_nil, map_methodLine h]
  intro hpre
  exact absurd (prefix_append_cons (space_not_mem_methodName false) hpre)
    (show ¬ httpMethodGet <+: methodName true by decide)

theorem nextToken_post_get_none :
    nextToken httpMethodGet line = none ↔ ¬ httpMethodGet <:+: resource.map toLower := by
  have hspace : 32 ∉ httpMethodGet := space_not_mem_methodName false
  have hmethod : ¬ httpMethodGet <:+: methodName true := by decide
  have hversion : ¬ httpMethodGet <:+: versionName http11 := by cases http11 <;> decide
  rw [nextToken_eq_none get_ne_nil, map_methodLine h, infix_append_cons hspace,
    infix_append_cons hspace, or_iff_right hmethod, or_iff_left hversion]

end Post

theorem IsMethodLine.unique {line : Bytes} {post post' http11 http11' : Bool}
    {resource resource' : Bytes} (h : IsMethodLine line post http11 resource)
    (h' : IsMethodLine line post' http11' resource') :
    post = post' ∧ http11 = http11' ∧ resource = resource' := by
  have hpost : post = post' := by
    cases post <;> cases post'
    · rfl
    · exact absurd (nextToken_get h) (nextToken_post_get h')
    · exact absurd (nextToken_get h') (nextToken_post_get h)
    · rfl
  subst hpost
  have hlen := (length_methodLine h).symm.trans (length_methodLine h')
  obtain ⟨method, version, rfl, hmethod, hversion⟩ := h
  obtain ⟨method', version', heq, hmethod', hversion'⟩ := h'
  have hmethods : method.length = method'.length := by
    rw [← List.length_map toLower, hmethod, ← hmethod', List.length_map]
  obtain ⟨-, heq⟩ := List.append_inj heq hmethods
  obtain ⟨hresource, heq⟩ := List.append_inj (List.cons.inj heq).2 (by omega)
  obtain ⟨-, rfl⟩ := List.cons.inj heq
  refine ⟨rfl, ?_, hresource⟩
  have hname : versionName http11 = versionName http11' := hversion.symm.trans hversion'
  revert hname
  cases http11 <;> cases http11' <;> decide

theorem regular_of {line : Bytes} {post http11 : Bool} {resource : Bytes}
    (h : IsMethodLine line post http11 resource) (hlower : resource.map toLower = resource)
    (hget : post = true → ¬ httpMethodGet <:+: resource)
    (h11 : ¬ httpVersion1p1 <:+: resource)
    (h10 : http11 = false → ¬ httpVersion1p0 <:+: resource) : Regular line where
  lower h' := by
    obtain ⟨-, -, rfl⟩ := h.unique h'
    exact hlower
  get h' := by
    obtain ⟨hpost, -, rfl⟩ := h.unique h'
    rw [hlower]
    exact hget hpost
  version11 h' := by
    obtain ⟨-, -, rfl⟩ := h.unique h'
    rwa [hlower]
  version10 h' := by
    obtain ⟨-, hhttp11, rfl⟩ := h.unique h'
    rw [hlower]
    exact h10 hhttp11
  other hno := absurd ⟨post, http11, resource, h⟩ hno

/-! ## The request -/

def resourceBlob (line : HttpBlob) (post : Bool) (versionLocation : Nat) : HttpBlob :=
  ⟨(lowered line).mem.drop ((methodName post).length + 1),
    (versionLocation + 2 ^ 16 - ((methodName post).length + 1) - 1) % 2 ^ 16⟩

section Blob

variable {line : HttpBlob} {post http11 : Bool} {resource : Bytes}
  (h : IsMethodLine line.bytes post http11 resource)

include h

/-- What is found in a method line; of a version that is in the resource the first place counts. -/
theorem methodLine_eq :
    methodLine (lowered line) =
      match nextToken httpVersion1p1 line.bytes with
      | some n => some (if nextToken httpMethodGet line.bytes = none then methodPost else methodGet,
          true, resourceBlob line post n)
      | none => (nextToken httpVersion1p0 line.bytes).map fun n =>
          (if nextToken httpMethodGet line.bytes = none then methodPost else methodGet, false,
            resourceBlob line post n) := by
  have hbegin : ¬ (nextToken httpMethodGet line.bytes ≠ some 0 ∧
      nextToken httpMethodPost line.bytes ≠ some 0) := by
    cases post with
    | false => exact fun hno => hno.1 (nextToken_get h)
    | true => exact fun hno => hno.2 (nextToken_post h)
  have hlen : (if nextToken httpMethodGet line.bytes ≠ some 0 then httpMethodPost.length
      else httpMethodGet.length) = (methodName post).length := by
    cases post with
    | false => exact if_neg (not_not_intro (nextToken_get h))
    | true => exact if_pos (nextToken_post_get h)
  simp only [methodLine, nextToken_lowered]
  rw [if_neg hbegin, hlen]
  cases nextToken httpVersion1p1 line.bytes with
  | some n => rfl
  | none => cases nextToken httpVersion1p0 line.bytes <;> rfl

theorem drop_methodLine :
    ∃ rest, (lowered line).mem.drop ((methodName post).length + 1) =
      resource.map toLower ++ 32 :: (versionName http11 ++ rest) := by
  have hbytes : (lowered line).mem.take line.uLength = line.bytes.map toLower := lowered_bytes line
  refine ⟨(lowered line).mem.drop line.uLength, ?_⟩
  conv_lhs => rw [← List.take_append_drop line.uLength (lowered line).mem, hbytes, map_methodLine h]
  rw [List.append_assoc, List.cons_append, List.append_assoc, List.cons_append]
  exact List.drop_length_add_append ..

theorem resourceBlob_bytes (hlen : line.uLength ≤ httpCoreMaxHeaderLineLength) :
    (resourceBlob line post ((methodName post).length + resource.length + 2)).bytes =
      resource.map toLower := by
  obtain ⟨rest, hdrop⟩ := drop_methodLine h
  have hbytes : line.bytes.length ≤ line.uLength := List.length_take_le ..
  have hline := length_methodLine h
  have hmax : httpCoreMaxHeaderLineLength = 320 := rfl
  have hmod : ((methodName post).length + resource.length + 2 + 2 ^ 16 -
      ((methodName post).length + 1) - 1) % 2 ^ 16 = (resource.map toLower).length := by
    rw [List.length_map]
    omega
  unfold resourceBlob HttpBlob.bytes
  dsimp only
  rw [hmod, hdrop]
  exact List.take_left

theorem resourceBlob_early (hlen : line.uLength ≤ httpCoreMaxHeaderLineLength) {n : Nat}
    (hn : (methodName post).length < n) (hn' : n ≤ (methodName post).length + resource.length) :
    (resourceBlob line post n).bytes ≠ resource := by
  obtain ⟨rest, hdrop⟩ := drop_methodLine h
  have hbytes : line.bytes.length ≤ line.uLength := List.length_take_le ..
  have hline := length_methodLine h
  have hmax : httpCoreMaxHeaderLineLength = 320 := rfl
  intro heq
  have hlength := congrArg List.length heq
  unfold resourceBlob HttpBlob.bytes at hlength
  dsimp only at hlength
  rw [hdrop, List.length_take, List.length_append, List.length_cons, List.length_append,
    List.length_map] at hlength
  omega

end Blob

theorem methodLine_early {line : HttpBlob} {post http11 : Bool} {resource : Bytes}
    (h : IsMethodLine line.bytes post http11 resource)
    (hlen : line.uLength ≤ httpCoreMaxHeaderLineLength) {version : Bool}
    (hin : versionName version <:+: resource.map toLower)
    (hfirst : version = false → nextToken httpVersion1p1 line.bytes = none) :
    ∃ method blob, methodLine (lowered line) = some (method, version, blob) ∧ blob.bytes ≠ resource := by
  obtain ⟨n, hn, hlo, hhi⟩ := nextToken_version_early h version hin
  refine ⟨if nextToken httpMethodGet line.bytes = none then methodPost else methodGet,
    resourceBlob line post n, ?_, resourceBlob_early h hlen hlo hhi⟩
  cases version with
  | true =>
    have hn : nextToken httpVersion1p1 line.bytes = some n := hn
    rw [methodLine_eq h, hn]
  | false =>
    have hn : nextToken httpVersion1p0 line.bytes = some n := hn
    rw [methodLine_eq h, hfirst rfl, hn]
    rfl

theorem methodLine_regular {line : HttpBlob} {post http11 : Bool} {resource : Bytes}
    (h : IsMethodLine line.bytes post http11 resource)
    (hlen : line.uLength ≤ httpCoreMaxHeaderLineLength)
    (h11 : ¬ httpVersion1p1 <:+: resource.map toLower)
    (h10 : http11 = false → ¬ httpVersion1p0 <:+: resource.map toLower) :
    ∃ blob, methodLine (lowered line) =
        some (if nextToken httpMethodGet line.bytes = none then methodPost else methodGet, http11, blob) ∧
      blob.bytes = resource.map toLower := by
  refine ⟨_, ?_, resourceBlob_bytes h hlen⟩
  have hn : nextToken httpVersion1p1 line.bytes = _ := nextToken_version h true h11
  cases http11 with
  | true => rw [methodLine_eq h, hn, if_pos rfl]
  | false =>
    have hn₀ : nextToken httpVersion1p0 line.bytes = _ := nextToken_version h false (h10 rfl)
    rw [methodLine_eq h, hn, if_neg (by decide), hn₀, if_pos rfl]
    rfl

theorem methodRequest_isSome (line : HttpBlob) (s : Session) :
    (methodRequest (lowered line) s).2.isSome ↔
      (httpMethodGet <+: line.bytes.map toLower ∨ httpMethodPost <+: line.bytes.map toLower) ∧
      (httpVersion1p1 <:+: line.bytes.map toLower ∨ httpVersion1p0 <:+: line.bytes.map toLower) := by
  have hsome : (methodRequest (lowered line) s).2.isSome = (methodLine (lowered line)).isSome := by
    unfold methodRequest
    rcases methodLine (lowered line) with _ | ⟨method, http11, blob⟩ <;> rfl
  have hv11 : (nextToken httpVersion1p1 line.bytes).isSome ↔
      httpVersion1p1 <:+: line.bytes.map toLower := nextToken_isSome (versionName_ne_nil true)
  have hv10 : (nextToken httpVersion1p0 line.bytes).isSome ↔
      httpVersion1p0 <:+: line.bytes.map toLower := nextToken_isSome (versionName_ne_nil false)
  rw [hsome, ← nextToken_eq_zero get_ne_nil, ← nextToken_eq_zero post_ne_nil, ← hv11, ← hv10]
  simp only [methodLine, nextToken_lowered]
  by_cases hbegin : nextToken httpMethodGet line.bytes ≠ some 0 ∧
      nextToken httpMethodPost line.bytes ≠ some 0
  · rw [if_pos hbegin]
    exact iff_of_false nofun fun h => h.1.elim hbegin.1 hbegin.2
  · rw [if_neg hbegin, and_iff_right (by rwa [not_and_or, not_not, not_not] at hbegin)]
    cases nextToken httpVersion1p1 line.bytes with
    | some n => exact iff_of_true rfl (.inl rfl)
    | none => cases nextToken httpVersion1p0 line.bytes <;> simp

/-- What the handlers are given is what `methodLine` finds. -/
theorem methodRequest_some {line : HttpBlob} {s : Session} {method : Nat} {http11 : Bool}
    {blob : HttpBlob} (h : methodLine line = some (method, http11, blob)) :
    (methodRequest line s).2 = some (method, blob) ∧
      (methodRequest line s).1.uFlags.methodPost =
        decide (nextToken httpMethodGet line.bytes ≠ some 0) ∧
      (methodRequest line s).1.uFlags.http11 = http11 := by
  unfold methodRequest
  rw [h]
  exact ⟨rfl, rfl, rfl⟩

theorem Agrees.found {line : HttpBlob} {s : Session} (hagrees : Agrees line s) {post http11 : Bool}
    {resource : Bytes} (h : IsMethodLine line.bytes post http11 resource) {method : Nat}
    {version : Bool} {blob : HttpBlob} (hfound : methodLine (lowered line) = some (method, version, blob)) :
    method = (if post then methodPost else methodGet) ∧ blob.bytes = resource := by
  obtain ⟨hrequest, -, -⟩ := methodRequest_some (s := s) hfound
  obtain ⟨hmethod, hbytes, -, -⟩ := hagrees.hands h hrequest
  exact ⟨hmethod, hbytes⟩

theorem agrees_iff (line : HttpBlob) (s : Session) (hlen : line.uLength ≤ httpCoreMaxHeaderLineLength) :
    Agrees line s ↔ Regular line.bytes := by
  constructor
  · intro hagrees
    have hversion11 : ∀ {post http11 resource}, IsMethodLine line.bytes post http11 resource →
        ¬ httpVersion1p1 <:+: resource.map toLower := by
      intro post http11 resource h hin
      obtain ⟨method, blob, hfound, hne⟩ := @methodLine_early line post http11 resource h hlen true hin nofun
      exact hne (hagrees.found h hfound).2
    have hversion10 : ∀ {post resource}, IsMethodLine line.bytes post false resource →
        ¬ httpVersion1p0 <:+: resource.map toLower := by
      intro post resource h hin
      have hnone : nextToken httpVersion1p1 line.bytes = none :=
        (nextToken_version h true (hversion11 h)).trans (if_neg (by decide))
      obtain ⟨method, blob, hfound, hne⟩ :=
        @methodLine_early line post false resource h hlen false hin fun _ => hnone
      exact hne (hagrees.found h hfound).2
    have hregular : ∀ {post http11 resource}, IsMethodLine line.bytes post http11 resource →
        (if nextToken httpMethodGet line.bytes = none then methodPost else methodGet) =
          (if post then methodPost else methodGet) ∧ resource.map toLower = resource := by
      intro post http11 resource h
      obtain ⟨blob, hfound, hbytes⟩ := methodLine_regular h hlen (hversion11 h) fun h10 => by
        subst h10
        exact hversion10 h
      rw [← hbytes]
      exact hagrees.found h hfound
    refine ⟨fun h => (hregular h).2, fun h hin => ?_, hversion11, hversion10, fun hno haccept => ?_⟩
    · have hmethod := (hregular h).1
      rw [if_neg (not_imp_not.2 (nextToken_post_get_none h).1 (not_not_intro hin))] at hmethod
      cases hmethod
    · exact hno (hagrees.succeeds.1 ((methodRequest_isSome line s).2 haccept))
  · intro hregular
    have hfound : ∀ {post http11 resource}, IsMethodLine line.bytes post http11 resource → _ :=
      fun {post http11 resource} h => methodLine_regular h hlen (hregular.version11 h) fun h10 => by
        subst h10
        exact hregular.version10 h
    refine ⟨⟨fun hsome => ?_, ?_⟩, ?_⟩
    · by_contra hno
      exact hregular.other hno ((methodRequest_isSome line s).1 hsome)
    · rintro ⟨post, http11, resource, h⟩
      obtain ⟨blob, hfound, -⟩ := hfound h
      rw [(methodRequest_some hfound).1]
      rfl
    · intro post http11 resource h method blob hrequest
      obtain ⟨blob', hfound, hbytes⟩ := hfound h
      obtain ⟨hrequest', hpost, hhttp11⟩ := methodRequest_some (s := s) hfound
      rw [hrequest'] at hrequest
      cases hrequest
      rw [hpost, hhttp11, nextToken_lowered, hbytes]
      refine ⟨?_, hregular.lower h, ?_, rfl⟩
      · cases post with
        | false =>
          rw [nextToken_get h]
          rfl
        | true => exact if_pos ((nextToken_post_get_none h).2 (hregular.get h))
      · cases post with
        | false =>
          rw [nextToken_get h]
          rfl
        | true => exact decide_eq_true (nextToken_post_get h)

def ReadsOnly (line : HttpBlob) : Prop := readMethodLine ⟨line.bytes, line.uLength⟩ ≠ .error .outOfBounds

/-- The byte behind the line is always read. Apart from that, what is done agrees with the line exactly if
the line is regular. -/
theorem method_line (line : HttpBlob) (s : Session)
    (hlen : line.uLength ≤ httpCoreMaxHeaderLineLength) :
    ¬ ReadsOnly line ∧ (Agrees line s ↔ Regular line.bytes) :=
  ⟨not_not_intro (readMethodLine_error (List.length_take_le ..)), agrees_iff line s hlen⟩

def waiting : Session := { Progress.getFile with connectionState := .requestMethod }

def getLine : HttpBlob := ⟨ascii "GET / HTTP/1.1\r\n", 14⟩

theorem method_line_get : ¬ ReadsOnly getLine ∧ Agrees getLine waiting := by
  have h : IsMethodLine getLine.bytes false true [47] :=
    ⟨ascii "GET", ascii "HTTP/1.1", by decide, by decide, by decide⟩
  have hline := method_line getLine waiting (by decide)
  exact ⟨hline.1, hline.2.2 (regular_of h (by decide) nofun (by decide) nofun)⟩

def postLine : HttpBlob := ⟨ascii "POST /get HTTP/1.1\r\n", 18⟩

/-- The flag says POST, and the handlers are asked for a GET. -/
theorem post_taken_for_get :
    IsMethodLine postLine.bytes true true (ascii "/get") ∧
      (methodRequest (lowered postLine) waiting).1.uFlags.methodPost = true ∧
      (methodRequest (lowered postLine) waiting).2.map Prod.fst = some methodGet ∧
      ¬ (ReadsOnly postLine ∧ Agrees postLine waiting) := by
  have h : IsMethodLine postLine.bytes true true (ascii "/get") :=
    ⟨ascii "POST", ascii "HTTP/1.1", by decide, by decide, by decide⟩
  have hregular : ¬ Regular postLine.bytes := fun hregular => hregular.get h (by decide)
  exact ⟨h, by decide, by decide, fun ⟨_, hagrees⟩ =>
    hregular ((agrees_iff postLine waiting (by decide)).1 hagrees)⟩

end SimpleLink.Http.MethodLine
