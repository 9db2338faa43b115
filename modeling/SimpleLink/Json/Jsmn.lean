import Mathlib.Data.List.Basic
import Mathlib.Data.UInt

/-!
# The JSON parser (`jsmn.c`)

`jsmn_parse` cuts a text into tokens: objects, arrays, strings and other
primitives, each with its place in the text and the number of values in it. A
call that runs out of tokens leaves the parser where it was, for a later call
with more of them; a call without tokens only counts. It is built without
`JSMN_PARENT_LINKS` and without `JSMN_STRICT`.

The tokens are those that have been allocated, `toknext` of them, and an index or
an end of -1 is `none`. The errors leave everything as it was before the character
that they are about.
-/

namespace SimpleLink.Json

/-- `jsmntype_t`. -/
inductive JsmnType where
  | primitive
  | object
  | array
  | string
  deriving DecidableEq

/-- The errors of `jsmnerr_t`, and a read of `tokens[-1]`. -/
inductive JsmnErr where
  | noMem
  | inval
  | part
  | outside

/-- What `jsmn_fill_token` writes; `stop` is the `end` of the token. -/
structure Span where
  type : JsmnType
  start : Nat
  stop : Option Nat

/-- `jsmntok_t`. -/
structure JsmnTok extends Span where
  size : Nat

def Span.isOpen (t : Span) : Bool := t.stop.isNone

def Span.isContainer (t : Span) : Bool := decide (t.type = .array ∨ t.type = .object)

/-- `jsmn_parser`, with the tokens. -/
structure JsmnParser where
  pos : Nat
  tokens : List JsmnTok
  toksuper : Option Nat

/-- `jsmn_init`. -/
def jsmnInit : JsmnParser := ⟨0, [], none⟩

/-! ## Strings and primitives -/

/-- The characters that end a primitive. -/
def endsPrimitive (c : UInt8) : Bool := [58, 9, 13, 10, 32, 44, 93, 125].contains c

/-- The loop of `jsmn_parse_primitive`: how many characters it passes. -/
def scanPrimitive : List UInt8 → Option Nat
  | [] => some 0
  | c :: js =>
    if c = 0 ∨ endsPrimitive c then some 0
    else if c < 32 ∨ 127 ≤ c then none
    else (scanPrimitive js).map (· + 1)

def isHexDigit (c : UInt8) : Bool :=
  decide ((48 ≤ c ∧ c ≤ 57) ∨ (65 ≤ c ∧ c ≤ 70) ∨ (97 ≤ c ∧ c ≤ 102))

/-- The loop of `jsmn_parse_string`: how many characters are before the closing quote. `hex` digits of a
`\u` are still to come. -/
def scanString : (hex : Nat) → List UInt8 → Except JsmnErr Nat
  | _, [] => .error .part
  | hex, c :: js =>
    if c = 0 then .error .part
    else if 0 < hex then
      if isHexDigit c then (scanString (hex - 1) js).map (· + 1) else .error .inval
    else if c = 34 then .ok 0
    else if c = 92 then
      match js with
      | [] => .error .part
      | e :: js =>
        if [34, 47, 92, 98, 102, 114, 110, 116].contains e then (scanString 0 js).map (· + 2)
        else if e = 117 then (scanString 4 js).map (· + 2)
        else .error .inval
    else (scanString 0 js).map (· + 1)

/-! ## The loop -/

/-- `tokens[toksuper].size++`. -/
def bump (super : Option Nat) (tokens : List JsmnTok) : List JsmnTok :=
  match super with
  | none => tokens
  | some i => tokens.modify i fun t => { t with size := t.size + 1 }

/-- A token is allocated and counted in its parent; without an array it is only counted. -/
def addToken (num : Option Nat) (p : JsmnParser) (pos : Nat) (t : Span) :
    Except JsmnErr (Nat × JsmnParser) :=
  match num with
  | none => .ok (1, { p with pos := pos })
  | some num =>
    if p.tokens.length < num then
      .ok (1, { p with pos := pos, tokens := bump p.toksuper (p.tokens ++ [⟨t, 0⟩]) })
    else .error .noMem

/-- The loops from `toknext - 1` down to a token. -/
def lastToken (f : Span → Bool) : List JsmnTok → Option Nat
  | [] => none
  | t :: ts =>
    match lastToken f ts with
    | some i => some (i + 1)
    | none => if f t.toSpan then some 0 else none

/-- A `{` or a `[`. -/
def openToken (num : Option Nat) (p : JsmnParser) (type : JsmnType) :
    Except JsmnErr (Nat × JsmnParser) :=
  (addToken num p (p.pos + 1) ⟨type, p.pos, none⟩).map fun (n, q) =>
    (n, { q with toksuper := if num.isSome then some p.tokens.length else q.toksuper })

/-- The last token that is open is closed. -/
def closeToken (p : JsmnParser) (type : JsmnType) : Except JsmnErr JsmnParser :=
  match lastToken Span.isOpen p.tokens with
  | none => .error .inval
  | some i =>
    if (p.tokens[i]?).any (·.type = type) then
      let tokens := p.tokens.modify i fun t => { t with stop := some (p.pos + 1) }
      .ok ⟨p.pos + 1, tokens, lastToken Span.isOpen (tokens.take (i + 1))⟩
    else .error .inval

/-- A `}` or a `]`. -/
def closeBracket (num : Option Nat) (p : JsmnParser) (type : JsmnType) :
    Except JsmnErr (Nat × JsmnParser) :=
  match num with
  | none => .ok (0, { p with pos := p.pos + 1 })
  | some _ => (closeToken p type).map fun p => (0, p)

/-- A `,`: the last container that is open becomes the parent, if the parent is none. -/
def comma (num : Option Nat) (p : JsmnParser) : Except JsmnErr (Nat × JsmnParser) :=
  let next : JsmnParser := { p with pos := p.pos + 1 }
  match num, p.toksuper with
  | none, _ => .ok (0, next)
  | some _, none => .error .outside
  | some _, some i =>
    if (p.tokens[i]?).any (·.isContainer) then .ok (0, next)
    else
      let super := (lastToken (fun t => t.isContainer && t.isOpen) p.tokens).or (some i)
      .ok (0, { next with toksuper := super })

/-- A `:`: what comes belongs to the last token. -/
def colon (p : JsmnParser) : JsmnParser :=
  { p with
    pos := p.pos + 1
    toksuper := if p.tokens = [] then none else some (p.tokens.length - 1) }

/-- A turn of the loop of `jsmn_parse`: how many tokens it counts, and the parser after it. -/
def jsmnStep (js : List UInt8) (num : Option Nat) (p : JsmnParser) (c : UInt8) :
    Except JsmnErr (Nat × JsmnParser) :=
  if c = 123 then openToken num p .object
  else if c = 91 then openToken num p .array
  else if c = 125 then closeBracket num p .object
  else if c = 93 then closeBracket num p .array
  else if c = 34 then
    match scanString 0 (js.drop (p.pos + 1)) with
    | .error e => .error e
    | .ok n => addToken num p (p.pos + n + 2) ⟨.string, p.pos + 1, some (p.pos + 1 + n)⟩
  else if c = 9 ∨ c = 13 ∨ c = 10 ∨ c = 32 then .ok (0, { p with pos := p.pos + 1 })
  else if c = 58 then .ok (0, colon p)
  else if c = 44 then comma num p
  else
    match scanPrimitive (js.drop p.pos) with
    | none => .error .inval
    | some n => addToken num p (p.pos + n) ⟨.primitive, p.pos, some (p.pos + n)⟩

/-- `js[pos]`, where the loops go on. -/
def charAt (js : List UInt8) (pos : Nat) : Option UInt8 := (js[pos]?).filter (· ≠ 0)

/-- The loop after the last character. -/
def jsmnFinish (count : Nat) (p : JsmnParser) : Except JsmnErr Nat :=
  if p.tokens.any (·.isOpen) then .error .part else .ok count

def jsmnLoop (js : List UInt8) (num : Option Nat) :
    Nat → Nat → JsmnParser → Except JsmnErr Nat × JsmnParser
  | 0, count, p => (jsmnFinish count p, p)
  | fuel + 1, count, p =>
    match charAt js p.pos with
    | none => (jsmnFinish count p, p)
    | some c =>
      match jsmnStep js num p c with
      | .error e => (.error e, p)
      | .ok (n, p) => jsmnLoop js num fuel (count + n) p

/-- `jsmn_parse`; each turn passes a character at least. -/
def jsmnParse (js : List UInt8) (num : Option Nat) (p : JsmnParser) :
    Except JsmnErr Nat × JsmnParser :=
  jsmnLoop js num (js.length - p.pos) 0 p

/-! ## Small facts -/

variable {js : List UInt8} {num : Option Nat} {k n count : Nat} {p q : JsmnParser} {c : UInt8}

theorem charAt_some (h : charAt js p.pos = some c) : js[p.pos]? = some c := by
  obtain ⟨hc, -⟩ := Option.filter_eq_some_iff.mp h
  exact hc

theorem drop_of_getElem {pos : Nat} (h : js[pos]? = some c) : js.drop pos = c :: js.drop (pos + 1) := by
  obtain ⟨hlt, rfl⟩ := List.getElem?_eq_some_iff.mp h
  exact List.drop_eq_getElem_cons hlt

/-- A string ends with a quote. -/
theorem scanString_ok {hex : Nat} : ∀ {n}, scanString hex js = .ok n → js[n]? = some 34 := by
  have hmap : ∀ {m : Nat} {js : List UInt8} {r : Except JsmnErr Nat} {n : Nat},
      (∀ {n}, r = .ok n → js[n]? = some 34) → r.map (· + m) = .ok n →
        ∃ i, n = i + m ∧ js[i]? = some 34 := by
    intro m js r n hr h
    cases r with
    | error e => cases h
    | ok i => exact ⟨i, (Except.ok.inj h).symm, hr rfl⟩
  fun_induction scanString hex js with
  | case1 => exact fun h => by cases h
  | case2 => exact fun h => by cases h
  | case3 hex c js _ _ _ ih =>
    intro n h
    obtain ⟨i, rfl, hi⟩ := hmap ih h
    exact hi
  | case4 => exact fun h => by cases h
  | case5 =>
    intro n h
    cases h
    rfl
  | case6 => exact fun h => by cases h
  | case7 _ _ _ _ e js _ ih =>
    intro n h
    obtain ⟨i, rfl, hi⟩ := hmap ih h
    exact hi
  | case8 _ _ _ _ js _ ih =>
    intro n h
    obtain ⟨i, rfl, hi⟩ := hmap ih h
    exact hi
  | case9 => exact fun h => by cases h
  | case10 _ _ js _ _ _ _ ih =>
    intro n h
    obtain ⟨i, rfl, hi⟩ := hmap ih h
    exact hi

theorem scanString_ne {e : JsmnErr} (hpart : e ≠ .part) (hinval : e ≠ .inval) (hex : Nat)
    (js : List UInt8) : scanString hex js ≠ .error e := by
  have hmap : ∀ {m : Nat} {r : Except JsmnErr Nat}, r ≠ .error e → r.map (· + m) ≠ .error e := by
    intro m r hr h
    cases r with
    | ok n => cases h
    | error e' => exact hr h
  have hne : ∀ {e' : JsmnErr}, e ≠ e' → (.error e' : Except JsmnErr Nat) ≠ .error e :=
    fun h heq => h (Except.error.inj heq).symm
  fun_induction scanString hex js with
  | case1 => exact hne hpart
  | case2 => exact hne hpart
  | case3 _ _ _ _ _ _ ih => exact hmap ih
  | case4 => exact hne hinval
  | case5 => exact fun h => by cases h
  | case6 => exact hne hpart
  | case7 _ _ _ _ _ _ _ ih => exact hmap ih
  | case8 _ _ _ _ _ _ ih => exact hmap ih
  | case9 => exact hne hinval
  | case10 _ _ _ _ _ _ _ ih => exact hmap ih

/-- What a primitive is made of. -/
def Plain (c : UInt8) : Prop := c ≠ 0 ∧ endsPrimitive c = false ∧ 32 ≤ c ∧ c < 127

theorem scanPrimitive_some : ∀ {n}, scanPrimitive js = some n →
    n ≤ js.length ∧ ∀ i < n, ∃ c, js[i]? = some c ∧ Plain c := by
  induction js with
  | nil =>
    intro n h
    cases h
    exact ⟨Nat.le_refl _, fun i hi => absurd hi (Nat.not_lt_zero i)⟩
  | cons c js ih =>
    intro n h
    rw [scanPrimitive] at h
    split_ifs at h with hend hout
    · cases h
      exact ⟨Nat.zero_le _, fun i hi => absurd hi (Nat.not_lt_zero i)⟩
    · obtain ⟨m, hm, rfl⟩ := Option.map_eq_some_iff.mp h
      obtain ⟨hlen, hplain⟩ := ih hm
      rw [not_or] at hend hout
      refine ⟨Nat.succ_le_succ hlen, fun i hi => ?_⟩
      cases i with
      | zero =>
        exact ⟨c, rfl, hend.1, Bool.eq_false_iff.mpr hend.2, UInt8.not_lt.mp hout.1,
          UInt8.not_le.mp hout.2⟩
      | succ i => exact hplain i (Nat.lt_of_succ_lt_succ hi)

/-- A primitive has a character, where the first one does not end it. -/
theorem scanPrimitive_pos (hchar : charAt js p.pos = some c) (hend : endsPrimitive c = false)
    (h : scanPrimitive (js.drop p.pos) = some n) : 0 < n := by
  have hzero : c ≠ 0 := by simpa using (Option.filter_eq_some_iff.mp hchar).2
  rw [drop_of_getElem (charAt_some hchar), scanPrimitive, if_neg (by simp [hzero, hend])] at h
  split_ifs at h
  obtain ⟨m, -, rfl⟩ := Option.map_eq_some_iff.mp h
  exact Nat.zero_lt_succ m

theorem lastToken_none {f : Span → Bool} {ts : List JsmnTok} (h : lastToken f ts = none) :
    ∀ t ∈ ts, f t.toSpan = false := by
  induction ts with
  | nil => exact fun t ht => by cases ht
  | cons t ts ih =>
    rw [lastToken] at h
    cases hl : lastToken f ts with
    | some i =>
      rw [hl] at h
      cases h
    | none =>
      rw [hl] at h
      dsimp only at h
      split_ifs at h with hf
      exact List.forall_mem_cons.mpr ⟨Bool.eq_false_iff.mpr hf, ih hl⟩

theorem lastToken_some {f : Span → Bool} {ts : List JsmnTok} : ∀ {i}, lastToken f ts = some i →
    ∃ a t b, ts = a ++ t :: b ∧ a.length = i ∧ f t.toSpan = true ∧ ∀ t ∈ b, f t.toSpan = false := by
  induction ts with
  | nil => exact fun h => by cases h
  | cons t ts ih =>
    intro i h
    rw [lastToken] at h
    cases hl : lastToken f ts with
    | some j =>
      rw [hl] at h
      cases h
      obtain ⟨a, u, b, rfl, rfl, hu, hb⟩ := ih hl
      exact ⟨t :: a, u, b, rfl, rfl, hu, hb⟩
    | none =>
      rw [hl] at h
      dsimp only at h
      split_ifs at h with hf
      cases h
      exact ⟨[], t, ts, rfl, rfl, hf, lastToken_none hl⟩

/-- The last one is where it is, if none after it is one. -/
theorem lastToken_append {f : Span → Bool} {a b : List JsmnTok} (hb : ∀ t ∈ b, f t.toSpan = false) :
    lastToken f (a ++ b) = lastToken f a := by
  have hnone : lastToken f b = none := by
    cases hl : lastToken f b with
    | none => rfl
    | some i =>
      obtain ⟨a', t, b', rfl, -, ht, -⟩ := lastToken_some hl
      exact absurd ((hb t (by simp)).symm.trans ht) Bool.false_ne_true
  induction a with
  | nil => exact hnone
  | cons t a ih => rw [List.cons_append, lastToken, ih, lastToken]

theorem lastToken_end {f : Span → Bool} (a : List JsmnTok) {t : JsmnTok} (ht : f t.toSpan = true) :
    lastToken f (a ++ [t]) = some a.length := by
  induction a with
  | nil => exact if_pos ht
  | cons u a ih => rw [List.cons_append, lastToken, ih, List.length_cons]

theorem lastToken_middle {f : Span → Bool} {a b : List JsmnTok} {t : JsmnTok} (ht : f t.toSpan = true)
    (hb : ∀ u ∈ b, f u.toSpan = false) : lastToken f (a ++ t :: b) = some a.length := by
  rw [List.append_cons, lastToken_append hb, lastToken_end a ht]

/-- The places of the tokens. -/
def JsmnParser.spans (p : JsmnParser) : List Span := p.tokens.map JsmnTok.toSpan

theorem bump_spans (super : Option Nat) (ts : List JsmnTok) :
    (bump super ts).map JsmnTok.toSpan = ts.map JsmnTok.toSpan := by
  cases super with
  | none => rfl
  | some i =>
    rw [bump]
    refine List.ext_getElem? fun j => ?_
    rw [List.getElem?_map, List.getElem?_map, List.getElem?_modify]
    split_ifs <;> cases ts[j]? <;> rfl

theorem length_bump (super : Option Nat) (ts : List JsmnTok) : (bump super ts).length = ts.length := by
  cases super <;> simp [bump]

/-! ## What a turn does -/

theorem addToken_some {num pos : Nat} {t : Span} (h : addToken (some num) p pos t = .ok (n, q)) :
    n = 1 ∧ p.tokens.length < num ∧
      q = { p with pos := pos, tokens := bump p.toksuper (p.tokens ++ [⟨t, 0⟩]) } := by
  rw [addToken] at h
  split_ifs at h with hroom
  cases h
  exact ⟨rfl, hroom, rfl⟩

/-- The characters of a token between the quotes or brackets, or of a primitive. -/
def Spelled (js : List UInt8) (t : Span) : Prop :=
  match t.type with
  | .object => js[t.start]? = some 123 ∧ ∀ e, t.stop = some e → js[e - 1]? = some 125
  | .array => js[t.start]? = some 91 ∧ ∀ e, t.stop = some e → js[e - 1]? = some 93
  | .string => 0 < t.start ∧ js[t.start - 1]? = some 34 ∧ ∃ e, t.stop = some e ∧ js[e]? = some 34
  | .primitive => ∃ e, t.stop = some e ∧ t.start < e ∧
      ∀ i, t.start ≤ i → i < e → ∃ c, js[i]? = some c ∧ Plain c

/-- A turn allocates a token, closes the last one that is open, or leaves the tokens alone. -/
inductive Turn (js : List UInt8) (num : Nat) (p : JsmnParser) : Nat → JsmnParser → Prop
  | add {t : Span} {pos : Nat} {super : Option Nat} : p.tokens.length < num → p.pos ≤ t.start →
      t.start < pos → (∀ e ∈ t.stop, t.start ≤ e ∧ e ≤ pos) → pos ≤ js.length → Spelled js t →
      (t.stop = none → t.isContainer ∧ super ≠ none) → (super = none → p.toksuper = none) →
      Turn js num p 1 ⟨pos, bump p.toksuper (p.tokens ++ [⟨t, 0⟩]), super⟩
  | close {a b : List JsmnTok} {t : JsmnTok} : p.tokens = a ++ t :: b → t.stop = none →
      (∀ u ∈ b, u.isOpen = false) → p.pos < js.length →
      (t.type = .object ∧ js[p.pos]? = some 125 ∨ t.type = .array ∧ js[p.pos]? = some 93) →
      Turn js num p 0 ⟨p.pos + 1, a ++ { t with stop := some (p.pos + 1) } :: b,
        lastToken Span.isOpen a⟩
  | move {super : Option Nat} : p.pos < js.length →
      (super = none → p.toksuper = none ∨ p.tokens = []) →
      Turn js num p 0 { p with pos := p.pos + 1, toksuper := super }

theorem modify_append {α : Type} (f : α → α) (a : List α) (t : α) (b : List α) :
    (a ++ t :: b).modify a.length f = a ++ f t :: b := by
  induction a with
  | nil => rfl
  | cons u a ih => exact congrArg (u :: ·) ih

theorem closeToken_eq {type : JsmnType} {a b : List JsmnTok} {t : JsmnTok}
    (heq : p.tokens = a ++ t :: b) (ht : t.isOpen = true) (hb : ∀ u ∈ b, u.isOpen = false) :
    closeToken p type =
      if t.type = type then
        .ok ⟨p.pos + 1, a ++ { t with stop := some (p.pos + 1) } :: b, lastToken Span.isOpen a⟩
      else .error .inval := by
  have hget : p.tokens[a.length]? = some t := by simp [heq]
  have htake : (a ++ { t with stop := some (p.pos + 1) } :: b).take (a.length + 1) =
      a ++ [{ t with stop := some (p.pos + 1) }] := by
    rw [List.take_append, List.take_of_length_le (Nat.le_succ _), Nat.add_sub_cancel_left]
    rfl
  rw [closeToken, heq, lastToken_middle ht hb, ← heq]
  dsimp only
  rw [hget, heq, modify_append, htake, lastToken_append (by simp [Span.isOpen])]
  simp

theorem closeToken_turn {type : JsmnType} (hc : js[p.pos]? = some c)
    (htype : type = .object ∧ c = 125 ∨ type = .array ∧ c = 93) (h : closeToken p type = .ok q) :
    Turn js k p 0 q := by
  cases hl : lastToken Span.isOpen p.tokens with
  | none =>
    rw [closeToken, hl] at h
    cases h
  | some i =>
    obtain ⟨a, t, b, heq, rfl, hopen, hb⟩ := lastToken_some hl
    rw [closeToken_eq heq hopen hb] at h
    split_ifs at h with htok
    cases h
    refine Turn.close heq (Option.isNone_iff_eq_none.mp hopen) hb
      (List.getElem?_eq_some_iff.mp hc).1 ?_
    rw [htok, hc]
    exact htype.imp (And.imp_right (congrArg some)) (And.imp_right (congrArg some))

/-- What a character asks for, with tokens or without. -/
inductive Act where
  | fail (e : JsmnErr)
  | opens (type : JsmnType)
  | closes (type : JsmnType)
  | token (pos : Nat) (t : Span)
  | skip
  | colon
  | comma

def actAt (js : List UInt8) (pos : Nat) (c : UInt8) : Act :=
  if c = 123 then .opens .object
  else if c = 91 then .opens .array
  else if c = 125 then .closes .object
  else if c = 93 then .closes .array
  else if c = 34 then
    match scanString 0 (js.drop (pos + 1)) with
    | .error e => .fail e
    | .ok n => .token (pos + n + 2) ⟨.string, pos + 1, some (pos + 1 + n)⟩
  else if c = 9 ∨ c = 13 ∨ c = 10 ∨ c = 32 then .skip
  else if c = 58 then .colon
  else if c = 44 then .comma
  else
    match scanPrimitive (js.drop pos) with
    | none => .fail .inval
    | some n => .token (pos + n) ⟨.primitive, pos, some (pos + n)⟩

def Act.run (num : Option Nat) (p : JsmnParser) : Act → Except JsmnErr (Nat × JsmnParser)
  | .fail e => .error e
  | .opens type => openToken num p type
  | .closes type => closeBracket num p type
  | .token pos t => addToken num p pos t
  | .skip => .ok (0, { p with pos := p.pos + 1 })
  | .colon => .ok (0, Json.colon p)
  | .comma => Json.comma num p

theorem jsmnStep_eq : jsmnStep js num p c = (actAt js p.pos c).run num p := by
  rw [jsmnStep, actAt]
  split_ifs
  · rfl
  · rfl
  · rfl
  · rfl
  · cases scanString 0 (js.drop (p.pos + 1)) <;> rfl
  · rfl
  · rfl
  · rfl
  · cases scanPrimitive (js.drop p.pos) <;> rfl

/-- A text is malformed or cut off by itself; tokens are short only where one is added. -/
inductive Asks (js : List UInt8) (pos : Nat) (c : UInt8) : Act → Prop
  | fail {e : JsmnErr} : e ≠ .noMem → e ≠ .outside → Asks js pos c (.fail e)
  | opens {type : JsmnType} : type = .object ∧ c = 123 ∨ type = .array ∧ c = 91 →
      Asks js pos c (.opens type)
  | closes {type : JsmnType} : type = .object ∧ c = 125 ∨ type = .array ∧ c = 93 →
      Asks js pos c (.closes type)
  | token {pos' e : Nat} {t : Span} : pos ≤ t.start → t.start < pos' → t.stop = some e →
      t.start ≤ e → e ≤ pos' → pos' ≤ js.length → Spelled js t → Asks js pos c (.token pos' t)
  | skip : Asks js pos c .skip
  | colon : Asks js pos c .colon
  | comma : Asks js pos c .comma

theorem actAt_asks (hchar : charAt js p.pos = some c) : Asks js p.pos c (actAt js p.pos c) := by
  have hc := charAt_some hchar
  rw [actAt]
  split_ifs with h123 h91 h125 h93 hstr hws hcolon hcomma
  · exact .opens (.inl ⟨rfl, h123⟩)
  · exact .opens (.inr ⟨rfl, h91⟩)
  · exact .closes (.inl ⟨rfl, h125⟩)
  · exact .closes (.inr ⟨rfl, h93⟩)
  · cases hr : scanString 0 (js.drop (p.pos + 1)) with
    | error e =>
      refine .fail (fun he => ?_) (fun he => ?_) <;>
        exact scanString_ne (by rw [he]; simp) (by rw [he]; simp) _ _ hr
    | ok m =>
      have hquote := scanString_ok hr
      rw [List.getElem?_drop] at hquote
      have hend := (List.getElem?_eq_some_iff.mp hquote).1
      refine .token (Nat.le_succ _) ?_ rfl (Nat.le_add_right _ _) ?_ ?_
        ⟨Nat.zero_lt_succ _, hc.trans (congrArg some hstr), _, rfl, hquote⟩
      · dsimp only
        omega
      · omega
      · omega
  · exact .skip
  · exact .colon
  · exact .comma
  · cases hr : scanPrimitive (js.drop p.pos) with
    | none => exact .fail (by simp) (by simp)
    | some m =>
      obtain ⟨hlen, hplain⟩ := scanPrimitive_some hr
      have hpos : 0 < m := scanPrimitive_pos hchar
        (by simp [endsPrimitive, h125, h93, hcolon, hcomma]; tauto) hr
      rw [List.length_drop] at hlen
      refine .token (Nat.le_refl _) (Nat.lt_add_of_pos_right hpos) rfl (Nat.le_add_right _ _)
        (Nat.le_refl _) (by omega) ⟨_, rfl, Nat.lt_add_of_pos_right hpos, fun i hi hlt => ?_⟩
      dsimp only at hi hlt
      obtain ⟨c, hc, hp⟩ := hplain (i - p.pos) (by omega)
      rw [List.getElem?_drop, Nat.add_sub_cancel' hi] at hc
      exact ⟨c, hc, hp⟩

theorem openToken_some {type : JsmnType} (h : openToken (some k) p type = .ok (n, q)) :
    n = 1 ∧ p.tokens.length < k ∧
      q = ⟨p.pos + 1, bump p.toksuper (p.tokens ++ [⟨⟨type, p.pos, none⟩, 0⟩]), some p.tokens.length⟩ := by
  rw [openToken] at h
  cases hr : addToken (some k) p (p.pos + 1) ⟨type, p.pos, none⟩ with
  | error e =>
    rw [hr] at h
    cases h
  | ok r =>
    rw [hr] at h
    obtain ⟨m, p'⟩ := r
    obtain ⟨rfl, hroom, rfl⟩ := addToken_some hr
    cases h
    exact ⟨rfl, hroom, rfl⟩

theorem closeBracket_some {type : JsmnType} (h : closeBracket (some k) p type = .ok (n, q)) :
    n = 0 ∧ closeToken p type = .ok q := by
  rw [closeBracket] at h
  cases hr : closeToken p type with
  | error e =>
    rw [hr] at h
    cases h
  | ok p' =>
    rw [hr] at h
    cases h
    exact ⟨rfl, rfl⟩

theorem comma_some (h : comma (some k) p = .ok (n, q)) :
    n = 0 ∧ p.toksuper ≠ none ∧ ∃ i, q = { p with pos := p.pos + 1, toksuper := some i } := by
  cases hs : p.toksuper with
  | none =>
    simp only [comma, hs] at h
    cases h
  | some i =>
    simp only [comma, hs] at h
    split_ifs at h
    · cases h
      exact ⟨rfl, by simp, i, by rw [← hs]⟩
    · cases h
      obtain ⟨j, hj⟩ : ∃ j, (lastToken (fun t => t.isContainer && t.isOpen) p.tokens).or (some i) =
          some j := Option.isSome_iff_exists.mp (by simp)
      exact ⟨rfl, by simp, j, by rw [hj]⟩

theorem addToken_error {pos : Nat} {t : Span} {e : JsmnErr} (h : addToken (some k) p pos t = .error e) :
    e = .noMem ∧ k ≤ p.tokens.length := by
  rw [addToken] at h
  split_ifs at h with hroom
  cases h
  exact ⟨rfl, Nat.le_of_not_lt hroom⟩

theorem openToken_error {type : JsmnType} {e : JsmnErr} (h : openToken (some k) p type = .error e) :
    e = .noMem ∧ k ≤ p.tokens.length := by
  rw [openToken] at h
  cases hr : addToken (some k) p (p.pos + 1) ⟨type, p.pos, none⟩ with
  | ok r =>
    rw [hr] at h
    cases h
  | error e' =>
    rw [hr] at h
    cases h
    exact addToken_error hr

theorem closeBracket_error {type : JsmnType} {e : JsmnErr}
    (h : closeBracket (some k) p type = .error e) : e = .inval := by
  rw [closeBracket, closeToken] at h
  cases hl : lastToken Span.isOpen p.tokens with
  | none =>
    rw [hl] at h
    cases h
    rfl
  | some i =>
    rw [hl] at h
    dsimp only at h
    split_ifs at h
    · cases h
    · cases h
      rfl

theorem comma_error {e : JsmnErr} (h : comma (some k) p = .error e) :
    e = .outside ∧ p.toksuper = none := by
  cases hs : p.toksuper with
  | none =>
    simp only [comma, hs] at h
    cases h
    exact ⟨rfl, rfl⟩
  | some i =>
    simp only [comma, hs] at h
    split_ifs at h

theorem jsmnStep_turn (hchar : charAt js p.pos = some c) (h : jsmnStep js (some k) p c = .ok (n, q)) :
    Turn js k p n q := by
  have hc := charAt_some hchar
  have hlt : p.pos < js.length := (List.getElem?_eq_some_iff.mp hc).1
  have hasks := actAt_asks hchar
  rw [jsmnStep_eq] at h
  generalize actAt js p.pos c = act at h hasks
  cases hasks with
  | fail => cases h
  | opens htype =>
    obtain ⟨rfl, hroom, rfl⟩ := openToken_some h
    refine Turn.add hroom (Nat.le_refl _) (Nat.lt_succ_self _) (fun e he => by cases he) hlt ?_
      (fun _ => ⟨?_, Option.some_ne_none _⟩) (fun hnone => by cases hnone)
    · rcases htype with ⟨rfl, rfl⟩ | ⟨rfl, rfl⟩ <;> exact ⟨hc, fun e he => by cases he⟩
    · rcases htype with ⟨rfl, -⟩ | ⟨rfl, -⟩ <;> rfl
  | closes htype =>
    obtain ⟨rfl, hclose⟩ := closeBracket_some (k := k) h
    exact closeToken_turn hc htype hclose
  | token hstart hpos hstop hle hend hlen hspelled =>
    obtain ⟨rfl, hroom, rfl⟩ := addToken_some h
    refine Turn.add hroom hstart hpos (fun e he => ?_) hlen hspelled (fun hnone => ?_) id
    · cases hstop.symm.trans he
      exact ⟨hle, hend⟩
    · cases hstop.symm.trans hnone
  | skip =>
    cases h
    exact Turn.move hlt .inl
  | colon =>
    cases h
    refine Turn.move hlt fun hnone => .inr ?_
    split_ifs at hnone with hnil
    exact hnil
  | comma =>
    obtain ⟨rfl, hsuper, i, rfl⟩ := comma_some h
    exact Turn.move hlt fun hnone => by cases hnone

/-! ## Runs -/

/-- Turns of the loop, and how many tokens they count. -/
inductive Turns (js : List UInt8) (num : Option Nat) : JsmnParser → Nat → JsmnParser → Prop
  | refl (p : JsmnParser) : Turns js num p 0 p
  | step {p p' q : JsmnParser} {c : UInt8} {n m : Nat} : charAt js p.pos = some c →
      jsmnStep js num p c = .ok (n, p') → Turns js num p' m q → Turns js num p (n + m) q

theorem Turns.trans {q' : JsmnParser} {m : Nat} (h : Turns js num p n q) (h' : Turns js num q m q') :
    Turns js num p (n + m) q' := by
  induction h with
  | refl p =>
    rw [Nat.zero_add]
    exact h'
  | step hchar hs _ ih =>
    rw [Nat.add_assoc]
    exact .step hchar hs (ih h')

/-- How the loop ends. -/
def Ends (js : List UInt8) (num : Option Nat) (count : Nat) (p : JsmnParser)
    (r : Except JsmnErr Nat) : Prop :=
  charAt js p.pos = none ∧ r = jsmnFinish count p ∨
    ∃ c e, charAt js p.pos = some c ∧ jsmnStep js num p c = .error e ∧ r = .error e

/-- Every turn passes a character. -/
theorem jsmnStep_pos (hchar : charAt js p.pos = some c) (h : jsmnStep js num p c = .ok (n, q)) :
    p.pos < q.pos := by
  cases num with
  | some k =>
    cases jsmnStep_turn hchar h with
    | add _ hstart hpos => exact Nat.lt_of_le_of_lt hstart hpos
    | close => exact Nat.lt_succ_self _
    | move => exact Nat.lt_succ_self _
  | none =>
    have hasks := actAt_asks hchar
    rw [jsmnStep_eq] at h
    generalize actAt js p.pos c = act at h hasks
    cases hasks with
    | fail => cases h
    | token hstart hpos =>
      cases h
      exact Nat.lt_of_le_of_lt hstart hpos
    | _ =>
      cases h
      exact Nat.lt_succ_self _

/-- `jsmn_parse` from a parser, with what has been counted before. -/
def parseFrom (js : List UInt8) (num : Option Nat) (count : Nat) (p : JsmnParser) :
    Except JsmnErr Nat × JsmnParser :=
  jsmnLoop js num (js.length - p.pos) count p

theorem charAt_none (h : js.length ≤ p.pos) : charAt js p.pos = none := by
  rw [charAt, List.getElem?_eq_none h]
  rfl

/-- Turns that are left over are not needed. -/
theorem jsmnLoop_fuel : ∀ {fuel fuel' count : Nat} {p : JsmnParser}, js.length - p.pos ≤ fuel →
    js.length - p.pos ≤ fuel' → jsmnLoop js num fuel count p = jsmnLoop js num fuel' count p := by
  intro fuel
  induction fuel with
  | zero =>
    intro fuel' count p h _
    cases fuel' with
    | zero => rfl
    | succ fuel' => rw [jsmnLoop, jsmnLoop, charAt_none (by omega)]
  | succ fuel ih =>
    intro fuel' count p h h'
    cases fuel' with
    | zero => rw [jsmnLoop, jsmnLoop, charAt_none (by omega)]
    | succ fuel' =>
      rw [jsmnLoop, jsmnLoop]
      cases hchar : charAt js p.pos with
      | none => rfl
      | some c =>
        dsimp only
        cases hs : jsmnStep js num p c with
        | error e => rfl
        | ok r =>
          have hpos : p.pos < r.2.pos := jsmnStep_pos hchar hs
          exact ih (by omega) (by omega)

theorem parseFrom_none (h : charAt js p.pos = none) :
    parseFrom js num count p = (jsmnFinish count p, p) := by
  rw [parseFrom, jsmnLoop_fuel (Nat.le_refl _) (Nat.le_succ _), jsmnLoop, h]

theorem parseFrom_error {e : JsmnErr} (hchar : charAt js p.pos = some c)
    (hs : jsmnStep js num p c = .error e) : parseFrom js num count p = (.error e, p) := by
  rw [parseFrom, jsmnLoop_fuel (Nat.le_refl _) (Nat.le_succ _), jsmnLoop, hchar]
  dsimp only
  rw [hs]

theorem parseFrom_ok (hchar : charAt js p.pos = some c) (hs : jsmnStep js num p c = .ok (n, q)) :
    parseFrom js num count p = parseFrom js num (count + n) q := by
  have hpos := jsmnStep_pos hchar hs
  rw [parseFrom, jsmnLoop_fuel (Nat.le_refl _) (Nat.le_succ _), jsmnLoop, hchar]
  dsimp only
  rw [hs]
  exact jsmnLoop_fuel (by omega) (Nat.le_refl _)

/-- After turns of the loop, the loop goes on. -/
theorem Turns.parseFrom (h : Turns js num p n q) : ∀ count,
    Json.parseFrom js num count p = Json.parseFrom js num (count + n) q := by
  induction h with
  | refl p => exact fun count => rfl
  | step hchar hs _ ih =>
    intro count
    rw [parseFrom_ok hchar hs, ih, Nat.add_assoc]

/-- The loop is some turns and its end. -/
theorem parseFrom_ends (js : List UInt8) (num : Option Nat) (count : Nat) (p : JsmnParser) :
    ∃ n q r, Turns js num p n q ∧ Ends js num (count + n) q r ∧
      parseFrom js num count p = (r, q) := by
  induction hm : js.length - p.pos using Nat.strong_induction_on generalizing count p with
  | _ m ih =>
    cases hchar : charAt js p.pos with
    | none => exact ⟨0, p, _, .refl p, .inl ⟨hchar, rfl⟩, parseFrom_none hchar⟩
    | some c =>
      cases hs : jsmnStep js num p c with
      | error e => exact ⟨0, p, _, .refl p, .inr ⟨c, e, hchar, hs, rfl⟩, parseFrom_error hchar hs⟩
      | ok r =>
        obtain ⟨n, p'⟩ := r
        have hpos := jsmnStep_pos hchar hs
        have hlt := (List.getElem?_eq_some_iff.mp (charAt_some hchar)).1
        obtain ⟨n', q, r, hturns, hends, hrun⟩ := ih (js.length - p'.pos) (by omega) (count + n) p' rfl
        refine ⟨n + n', q, r, .step hchar hs hturns, ?_, (parseFrom_ok hchar hs).trans hrun⟩
        rwa [← Nat.add_assoc]

/-- A run of the loop is what its turns and its end say. -/
theorem Turns.parseFrom_eq {r : Except JsmnErr Nat} (h : Turns js num p n q)
    (hends : Ends js num (count + n) q r) : Json.parseFrom js num count p = (r, q) := by
  rw [h.parseFrom]
  rcases hends with ⟨hchar, rfl⟩ | ⟨c, e, hchar, hs, rfl⟩
  · exact parseFrom_none hchar
  · exact parseFrom_error hchar hs

end SimpleLink.Json
