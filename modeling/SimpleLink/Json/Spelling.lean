import SimpleLink.Json.Tokens

/-!
# The texts of JSON

A text spells a value, and a value has tokens: one for each object, array, string and primitive in it, in the
order in which they begin. An object counts its keys, a key counts its value and an array its elements.
`jsmn_parse` reads every text that spells a value to the tokens of the value. It also takes texts that are not
JSON; what is a primitive here is what it takes for one, and a list may end with a comma.
-/

namespace SimpleLink.Json

variable {js : List UInt8} {num : Option Nat} {k n pos : Nat} {p q : JsmnParser} {c : UInt8}
  {w post : List UInt8} {ts : List JsmnTok}

/-! ## Values -/

def Blank (w : List UInt8) : Prop := ∀ c ∈ w, c = 9 ∨ c = 13 ∨ c = 10 ∨ c = 32

/-- What is between the quotes of a string. -/
inductive Chars : List UInt8 → Prop
  | nil : Chars []
  | plain {c : UInt8} {w : List UInt8} : c ≠ 0 → c ≠ 34 → c ≠ 92 → Chars w → Chars (c :: w)
  | escape {e : UInt8} {w : List UInt8} : e ∈ [34, 47, 92, 98, 102, 114, 110, 116] → Chars w →
      Chars (92 :: e :: w)
  | unicode {a b c d : UInt8} {w : List UInt8} : (∀ x ∈ [a, b, c, d], isHexDigit x = true) → Chars w →
      Chars (92 :: 117 :: a :: b :: c :: d :: w)

/-- The brackets of an object and of an array. -/
def Brackets (type : JsmnType) (o c : UInt8) : Prop :=
  type = .object ∧ o = 123 ∧ c = 125 ∨ type = .array ∧ o = 91 ∧ c = 93

/-- What a text spells: a value, an entry of a container (an element, or a key with its value) or what is
between the brackets of one. -/
inductive Piece where
  | value
  | entry (type : JsmnType)
  | list (type : JsmnType)

/-- `Spells piece pos w ts n`: the text `w`, which begins at `pos`, spells `piece`, of `n` entries and with the
tokens `ts`. -/
inductive Spells : Piece → Nat → List UInt8 → List JsmnTok → Nat → Prop
  | primitive {pos : Nat} {c : UInt8} {w : List UInt8} : c ∉ [123, 91, 34] → (∀ d ∈ c :: w, Plain d) →
      Spells .value pos (c :: w) [⟨⟨.primitive, pos, some (pos + (c :: w).length)⟩, 0⟩] 1
  | string {pos : Nat} {w : List UInt8} : Chars w →
      Spells .value pos (34 :: w ++ [34]) [⟨⟨.string, pos + 1, some (pos + 1 + w.length)⟩, 0⟩] 1
  | container {type : JsmnType} {o c : UInt8} {pos n : Nat} {w : List UInt8} {ts : List JsmnTok} :
      Brackets type o c → Spells (.list type) (pos + 1) w ts n →
      Spells .value pos (o :: w ++ [c]) (⟨⟨type, pos, some (pos + 1 + w.length + 1)⟩, n⟩ :: ts) 1
  | element {pos : Nat} {w : List UInt8} {ts : List JsmnTok} : Spells .value pos w ts 1 →
      Spells (.entry .array) pos w ts 1
  | member {pos : Nat} {key b b' w : List UInt8} {ts : List JsmnTok} : Chars key → Blank b → Blank b' →
      Spells .value (pos + (key.length + 2) + b.length + 1 + b'.length) w ts 1 →
      Spells (.entry .object) pos (34 :: key ++ [34] ++ b ++ 58 :: b' ++ w)
        (⟨⟨.string, pos + 1, some (pos + 1 + key.length)⟩, 1⟩ :: ts) 1
  | empty {type : JsmnType} {pos : Nat} {b : List UInt8} : Blank b → Spells (.list type) pos b [] 0
  | last {type : JsmnType} {pos : Nat} {b w b' : List UInt8} {ts : List JsmnTok} : Blank b → Blank b' →
      Spells (.entry type) (pos + b.length) w ts 1 → Spells (.list type) pos (b ++ w ++ b') ts 1
  | more {type : JsmnType} {pos n : Nat} {b w b' w' : List UInt8} {ts ts' : List JsmnTok} : Blank b →
      Blank b' → Spells (.entry type) (pos + b.length) w ts 1 →
      Spells (.list type) (pos + b.length + w.length + b'.length + 1) w' ts' n →
      Spells (.list type) pos (b ++ w ++ b' ++ 44 :: w') (ts ++ ts') (n + 1)

theorem Spells.closed {piece : Piece} (h : Spells piece pos w ts n) : ∀ t ∈ ts, t.isOpen = false := by
  induction h with
  | primitive => exact List.forall_mem_singleton.mpr rfl
  | string => exact List.forall_mem_singleton.mpr rfl
  | container _ _ ih => exact List.forall_mem_cons.mpr ⟨rfl, ih⟩
  | element _ ih => exact ih
  | member _ _ _ _ ih => exact List.forall_mem_cons.mpr ⟨rfl, ih⟩
  | empty => exact fun t ht => by cases ht
  | last _ _ _ ih => exact ih
  | more _ _ _ _ ih ih' => exact List.forall_mem_append.mpr ⟨ih, ih'⟩

/-! ## Strings and primitives -/

theorem scanString_quote (js : List UInt8) : scanString 0 (34 :: js) = .ok 0 := by
  rw [scanString.eq_def]
  rfl

theorem scanString_plain (js : List UInt8) (hzero : c ≠ 0) (hquote : c ≠ 34) (hslash : c ≠ 92) :
    scanString 0 (c :: js) = (scanString 0 js).map (· + 1) := by
  rw [scanString.eq_def]
  simp [hzero, hquote, hslash]

theorem scanString_escape {e : UInt8} (js : List UInt8) (he : e ∈ [34, 47, 92, 98, 102, 114, 110, 116]) :
    scanString 0 (92 :: e :: js) = (scanString 0 js).map (· + 2) := by
  rw [scanString]
  exact if_pos (List.contains_iff_mem.mpr he)

theorem scanString_unicode (js : List UInt8) :
    scanString 0 (92 :: 117 :: js) = (scanString 4 js).map (· + 2) := by
  rw [scanString]
  rfl

theorem scanString_hex {x : UInt8} (hex : Nat) (js : List UInt8) (hx : isHexDigit x = true) :
    scanString (hex + 1) (x :: js) = (scanString hex js).map (· + 1) := by
  have hzero : x ≠ 0 := by
    rintro rfl
    cases hx
  rw [scanString.eq_def]
  simp [hzero, hx]

theorem scanString_chars (h : Chars w) (post : List UInt8) :
    scanString 0 (w ++ 34 :: post) = .ok w.length := by
  induction h with
  | nil => exact scanString_quote post
  | plain hzero hquote hslash _ ih =>
    rw [List.cons_append, scanString_plain _ hzero hquote hslash, ih]
    rfl
  | escape he _ ih =>
    rw [List.cons_append, List.cons_append, scanString_escape _ he, ih]
    rfl
  | @unicode a b c d w hhex _ ih =>
    rw [List.cons_append, List.cons_append, scanString_unicode, List.cons_append, List.cons_append,
      List.cons_append, List.cons_append, scanString_hex 3 _ (hhex a (by simp)),
      scanString_hex 2 _ (hhex b (by simp)), scanString_hex 1 _ (hhex c (by simp)),
      scanString_hex 0 _ (hhex d (by simp)), ih]
    rfl

/-- What may come after a primitive. -/
def Stops (post : List UInt8) : Prop := ∀ c ∈ post.head?, endsPrimitive c = true

theorem Plain.not_ends (h : Plain c) : ¬ (c = 0 ∨ endsPrimitive c = true) := by
  rintro (h0 | hend)
  · exact h.1 h0
  · exact Bool.false_ne_true (h.2.1.symm.trans hend)

theorem scanPrimitive_plain (hstops : Stops post) (h : ∀ c ∈ w, Plain c) :
    scanPrimitive (w ++ post) = some w.length := by
  induction w with
  | nil =>
    cases post with
    | nil => rfl
    | cons c post => exact if_pos (.inr (hstops c rfl))
  | cons c w ih =>
    obtain ⟨hc, hw⟩ := List.forall_mem_cons.mp h
    have hrange : ¬ (c < 32 ∨ 127 ≤ c) := by
      rintro (hlt | hle)
      · exact UInt8.not_lt.mpr hc.2.2.1 hlt
      · exact UInt8.not_le.mpr hc.2.2.2 hle
    rw [List.cons_append, scanPrimitive, if_neg hc.not_ends, if_neg hrange, ih hw]
    rfl

/-! ## The text from a place on -/

theorem charAt_drop (h : js.drop pos = c :: post) (hzero : c ≠ 0) : charAt js pos = some c := by
  have hget : js[pos]? = some c := by
    rw [← Nat.add_zero pos, ← List.getElem?_drop, h]
    rfl
  rw [charAt, hget]
  exact Option.filter_some_pos (decide_eq_true hzero)

theorem drop_append (h : js.drop pos = w ++ post) : js.drop (pos + w.length) = post := by
  rw [← List.drop_drop, h, List.drop_left]

/-! ## The turns of a text -/

theorem Turns.one (hdrop : js.drop p.pos = c :: post) (hzero : c ≠ 0)
    (hs : jsmnStep js num p c = .ok (n, q)) : Turns js num p n q :=
  .step (charAt_drop hdrop hzero) hs (.refl q)

theorem turns_blank (hw : Blank w) (hdrop : js.drop p.pos = w ++ post) :
    Turns js num p 0 { p with pos := p.pos + w.length } := by
  induction w generalizing p with
  | nil => exact .refl p
  | cons c w ih =>
    obtain ⟨hc, hw⟩ := List.forall_mem_cons.mp hw
    have hs : jsmnStep js num p c = .ok (0, { p with pos := p.pos + 1 }) := by
      rcases hc with rfl | rfl | rfl | rfl <;> rfl
    have hzero : c ≠ 0 := by
      rintro rfl
      simp at hc
    have hrest := ih (p := { p with pos := p.pos + 1 }) hw (drop_append (w := [c]) hdrop)
    have := (Turns.one hdrop hzero hs).trans hrest
    rwa [Nat.add_assoc, Nat.add_comm 1] at this

theorem bump_append {super : Option Nat} {a : List JsmnTok} (h : ∀ i ∈ super, i < a.length)
    (b : List JsmnTok) : bump super (a ++ b) = bump super a ++ b := by
  cases super with
  | none => rfl
  | some i =>
    have hi : i < a.length := h i rfl
    rw [bump, bump]
    refine List.ext_getElem? fun j => ?_
    by_cases hj : j < a.length
    · rw [List.getElem?_modify, List.getElem?_append_left hj,
        List.getElem?_append_left (by rwa [List.length_modify]), List.getElem?_modify]
    · have hij : i ≠ j := by omega
      rw [List.getElem?_modify, List.getElem?_append_right (by omega),
        List.getElem?_append_right (by rw [List.length_modify]; omega), List.length_modify]
      simp [hij]

theorem addToken_eq {pos' : Nat} {tokens : List JsmnTok} {super : Option Nat} (t : Span)
    (hsuper : ∀ i ∈ super, i < tokens.length) (hroom : tokens.length < k) :
    addToken (some k) ⟨pos, tokens, super⟩ pos' t =
      .ok (1, ⟨pos', bump super tokens ++ [⟨t, 0⟩], super⟩) := by
  rw [addToken, ← bump_append hsuper]
  exact if_pos hroom

theorem lastToken_bump (f : Span → Bool) (super : Option Nat) (ts : List JsmnTok) :
    lastToken f (bump super ts) = lastToken f ts := by
  have hspans : ∀ {a b : List JsmnTok}, a.map JsmnTok.toSpan = b.map JsmnTok.toSpan →
      lastToken f a = lastToken f b := by
    intro a
    induction a with
    | nil =>
      intro b h
      rw [List.map_eq_nil_iff.mp h.symm]
    | cons t a ih =>
      intro b h
      cases b with
      | nil => cases h
      | cons u b =>
        obtain ⟨htu, hab⟩ := List.cons.inj h
        rw [lastToken, lastToken, ih hab, htu]
  exact hspans (bump_spans super ts)

theorem bump_middle (a b : List JsmnTok) (t : JsmnTok) :
    bump (some a.length) (a ++ t :: b) = a ++ { t with size := t.size + 1 } :: b :=
  modify_append _ a t b

/-- The parser is in a container, whose tokens come after `a`. -/
structure Inside (type : JsmnType) (a : List JsmnTok) (t : JsmnTok) (b : List JsmnTok) : Prop where
  type : t.type = type
  stop : t.isOpen = true
  closed : ∀ u ∈ b, u.isOpen = false
  container : t.isContainer = true

/-- What the turns over a text do. A value is counted in its parent; after it the parent is the same, or the last
container that is open. An entry is counted in its container, and after it the parent is the container or none. -/
def Reads (js : List UInt8) (num : Nat) : Piece → Nat → List UInt8 → List JsmnTok → Nat → Prop
  | .value, pos, w, ts, _ => ∀ {tokens : List JsmnTok} {super : Option Nat} {post : List UInt8},
      js.drop pos = w ++ post → Stops post → (∀ i ∈ super, i < tokens.length) →
      tokens.length + ts.length ≤ num →
      ∃ super', (super' = super ∨ super' = lastToken Span.isOpen tokens) ∧
        Turns js (some num) ⟨pos, tokens, super⟩ ts.length
          ⟨pos + w.length, bump super tokens ++ ts, super'⟩
  | .entry type, pos, w, ts, _ => ∀ {a b : List JsmnTok} {t : JsmnTok} {post : List UInt8},
      js.drop pos = w ++ post → Stops post → Inside type a t b →
      (a ++ t :: b).length + ts.length ≤ num →
      ∃ i, (i = a.length ∨ ∃ u ∈ (a ++ { t with size := t.size + 1 } :: b ++ ts)[i]?,
          u.isContainer = false) ∧
        Turns js (some num) ⟨pos, a ++ t :: b, some a.length⟩ ts.length
          ⟨pos + w.length, a ++ { t with size := t.size + 1 } :: b ++ ts, some i⟩
  | .list type, pos, w, ts, n => ∀ {a b : List JsmnTok} {t : JsmnTok} {post : List UInt8},
      js.drop pos = w ++ post → Stops post → Inside type a t b →
      (a ++ t :: b).length + ts.length ≤ num →
      ∃ super, Turns js (some num) ⟨pos, a ++ t :: b, some a.length⟩ ts.length
        ⟨pos + w.length, a ++ { t with size := t.size + n } :: b ++ ts, super⟩

theorem reads_primitive (hfirst : c ∉ [123, 91, 34]) (hw : ∀ d ∈ c :: w, Plain d) :
    Reads js k .value pos (c :: w) [⟨⟨.primitive, pos, some (pos + (c :: w).length)⟩, 0⟩] 1 := by
  intro tokens super post hdrop hstops hsuper hroom
  have hc := hw c List.mem_cons_self
  have hne : ∀ d : UInt8, endsPrimitive d = true → c ≠ d := by
    rintro d hd rfl
    exact hc.not_ends (.inr hd)
  have hs : jsmnStep js (some k) ⟨pos, tokens, super⟩ c =
      .ok (1, ⟨pos + (c :: w).length, bump super tokens ++
        [⟨⟨.primitive, pos, some (pos + (c :: w).length)⟩, 0⟩], super⟩) := by
    simp only [List.mem_cons, List.not_mem_nil, or_false, not_or] at hfirst
    rw [jsmnStep, if_neg hfirst.1, if_neg hfirst.2.1, if_neg (hne 125 rfl), if_neg (hne 93 rfl),
      if_neg hfirst.2.2, if_neg (by simp [hne 9 rfl, hne 13 rfl, hne 10 rfl, hne 32 rfl]),
      if_neg (hne 58 rfl), if_neg (hne 44 rfl), hdrop, scanPrimitive_plain hstops hw]
    exact addToken_eq _ hsuper hroom
  exact ⟨super, .inl rfl, Turns.one hdrop hc.1 hs⟩

/-- A string, with what comes after it. -/
theorem turns_string {tokens : List JsmnTok} {super : Option Nat} (hw : Chars w)
    (hdrop : js.drop pos = 34 :: w ++ [34] ++ post) (hsuper : ∀ i ∈ super, i < tokens.length)
    (hroom : tokens.length < k) :
    Turns js (some k) ⟨pos, tokens, super⟩ 1 ⟨pos + (w.length + 2), bump super tokens ++
      [⟨⟨.string, pos + 1, some (pos + 1 + w.length)⟩, 0⟩], super⟩ := by
  have hrest : js.drop (pos + 1) = w ++ 34 :: post :=
    drop_append (w := [34]) (by rw [hdrop]; simp)
  have hs : jsmnStep js (some k) ⟨pos, tokens, super⟩ 34 = .ok (1, ⟨pos + w.length + 2,
      bump super tokens ++ [⟨⟨.string, pos + 1, some (pos + 1 + w.length)⟩, 0⟩], super⟩) := by
    rw [jsmnStep, if_neg (by decide), if_neg (by decide), if_neg (by decide), if_neg (by decide),
      if_pos rfl, hrest, scanString_chars hw]
    exact addToken_eq _ hsuper hroom
  exact Turns.one (by rw [hdrop, List.append_assoc, List.cons_append]) (by decide) hs

theorem Inside.grown {type : JsmnType} {a b : List JsmnTok} {t : JsmnTok} (h : Inside type a t b)
    {ts : List JsmnTok} (hts : ∀ u ∈ ts, u.isOpen = false) (m : Nat) :
    Inside type a { t with size := m } (b ++ ts) where
  type := h.type
  stop := h.stop
  closed := List.forall_mem_append.mpr ⟨h.closed, hts⟩
  container := h.container

/-- A comma makes the container the parent again. -/
theorem turns_comma {type : JsmnType} {a b : List JsmnTok} {t : JsmnTok} {i : Nat}
    (hdrop : js.drop pos = 44 :: post) (h : Inside type a t b)
    (hi : i = a.length ∨ ∃ u ∈ (a ++ t :: b)[i]?, u.isContainer = false) :
    Turns js (some k) ⟨pos, a ++ t :: b, some i⟩ 0 ⟨pos + 1, a ++ t :: b, some a.length⟩ := by
  refine Turns.one hdrop (by decide) ?_
  rw [jsmnStep_eq]
  change comma (some k) ⟨pos, a ++ t :: b, some i⟩ = _
  simp only [comma]
  rcases hi with rfl | ⟨u, hu, hcont⟩
  · rw [if_pos]
    rw [List.getElem?_append_right (Nat.le_refl _), Nat.sub_self]
    exact h.container
  · have hlast : lastToken (fun t => t.isContainer && t.isOpen) (a ++ t :: b) = some a.length := by
      refine lastToken_middle (by rw [h.container, h.stop]; rfl) fun u hu => ?_
      rw [h.closed u hu, Bool.and_false]
    rw [if_neg, hlast]
    · rfl
    · rw [Option.mem_def.mp hu]
      simp [hcont]

theorem Brackets.opens {type : JsmnType} {o : UInt8} (h : Brackets type o c) :
    jsmnStep js num p o = openToken num p type := by
  rcases h with ⟨rfl, rfl, -⟩ | ⟨rfl, rfl, -⟩ <;> rfl

theorem Brackets.closes {type : JsmnType} {o : UInt8} (h : Brackets type o c) :
    jsmnStep js num p c = closeBracket num p type := by
  rcases h with ⟨rfl, -, rfl⟩ | ⟨rfl, -, rfl⟩ <;> rfl

theorem Brackets.stops {type : JsmnType} {o : UInt8} (h : Brackets type o c) : Stops (c :: post) := by
  rcases h with ⟨-, -, rfl⟩ | ⟨-, -, rfl⟩ <;> exact fun d hd => by cases hd; rfl

theorem Brackets.ne_zero {type : JsmnType} {o : UInt8} (h : Brackets type o c) : o ≠ 0 ∧ c ≠ 0 := by
  rcases h with ⟨-, rfl, rfl⟩ | ⟨-, rfl, rfl⟩ <;> exact ⟨by decide, by decide⟩

theorem reads_container {type : JsmnType} {o : UInt8} (hb : Brackets type o c)
    (h : Spells (.list type) (pos + 1) w ts n) (ih : Reads js k (.list type) (pos + 1) w ts n) :
    Reads js k .value pos (o :: w ++ [c]) (⟨⟨type, pos, some (pos + 1 + w.length + 1)⟩, n⟩ :: ts) 1 := by
  intro tokens super post hdrop hstops hsuper hroom
  have hlen : (bump super tokens).length = tokens.length := length_bump super tokens
  have hin : Inside type (bump super tokens) ⟨⟨type, pos, none⟩, 0⟩ [] := by
    refine ⟨rfl, rfl, (fun u hu => by cases hu), ?_⟩
    rcases hb with ⟨rfl, -⟩ | ⟨rfl, -⟩ <;> rfl
  have hdrop1 : js.drop (pos + 1) = w ++ c :: post := by
    refine drop_append (w := [o]) ?_
    rw [hdrop]
    simp
  have hdrop2 : js.drop (pos + 1 + w.length) = c :: post := drop_append hdrop1
  have hopen : jsmnStep js (some k) ⟨pos, tokens, super⟩ o =
      .ok (1, ⟨pos + 1, bump super tokens ++ [⟨⟨type, pos, none⟩, 0⟩], some (bump super tokens).length⟩) := by
    rw [hb.opens, openToken, addToken_eq _ hsuper (by simp at hroom; omega), hlen]
    rfl
  have hroom' : (bump super tokens ++ [(⟨⟨type, pos, none⟩, 0⟩ : JsmnTok)]).length + ts.length ≤ k := by
    simp [hlen] at hroom ⊢
    omega
  obtain ⟨super', hlist⟩ := ih hdrop1 hb.stops hin hroom'
  rw [Nat.zero_add, List.append_assoc, List.singleton_append] at hlist
  -- what is below the container is closed, so the bracket is its own
  have hclose : jsmnStep js (some k) ⟨pos + 1 + w.length, bump super tokens ++
      ⟨⟨type, pos, none⟩, n⟩ :: ts, super'⟩ c = .ok (0, ⟨pos + 1 + w.length + 1, bump super tokens ++
        ⟨⟨type, pos, some (pos + 1 + w.length + 1)⟩, n⟩ :: ts, lastToken Span.isOpen tokens⟩) := by
    rw [hb.closes, closeBracket, closeToken_eq rfl rfl h.closed, if_pos rfl, lastToken_bump]
    rfl
  have hrun := ((Turns.one (by rw [hdrop]; rfl) hb.ne_zero.1 hopen).trans hlist).trans
    (Turns.one hdrop2 hb.ne_zero.2 hclose)
  have hpos : pos + (o :: w ++ [c]).length = pos + 1 + w.length + 1 := by
    simp
    omega
  refine ⟨_, .inr rfl, ?_⟩
  rw [hpos, List.length_cons, Nat.add_comm ts.length]
  exact hrun

theorem reads_element (ih : Reads js k .value pos w ts 1) : Reads js k (.entry .array) pos w ts 1 := by
  intro a b t post hdrop hstops hin hroom
  have hlast : lastToken Span.isOpen (a ++ t :: b) = some a.length := lastToken_middle hin.stop hin.closed
  obtain ⟨super, hsuper, hrun⟩ := @ih (a ++ t :: b) (some a.length) post hdrop hstops
    (fun i hi => by cases hi; simp) hroom
  obtain rfl : super = some a.length := by
    rcases hsuper with rfl | rfl
    · rfl
    · exact hlast
  rw [bump_middle] at hrun
  exact ⟨a.length, .inl rfl, hrun⟩

theorem reads_member {key b b' : List UInt8} (hkey : Chars key) (hb : Blank b) (hb' : Blank b')
    (ih : Reads js k .value (pos + (key.length + 2) + b.length + 1 + b'.length) w ts 1) :
    Reads js k (.entry .object) pos (34 :: key ++ [34] ++ b ++ 58 :: b' ++ w)
      (⟨⟨.string, pos + 1, some (pos + 1 + key.length)⟩, 1⟩ :: ts) 1 := by
  intro a c t post hdrop hstops hin hroom
  have hlen : (34 :: key ++ [34]).length = key.length + 2 := by simp
  have h1 : js.drop pos = 34 :: key ++ [34] ++ (b ++ 58 :: (b' ++ (w ++ post))) := by
    rw [hdrop]
    simp
  have h2 : js.drop (pos + (key.length + 2)) = b ++ 58 :: (b' ++ (w ++ post)) := by
    rw [← hlen]
    exact drop_append h1
  have h3 := drop_append h2
  have h4 := drop_append (w := [58]) h3
  have h5 := drop_append h4
  -- the key is counted in the object, and its value in the key
  obtain ⟨A, hA⟩ : ∃ A, A = a ++ { t with size := t.size + 1 } :: c := ⟨_, rfl⟩
  obtain ⟨u, hu⟩ : ∃ u : JsmnTok, u = ⟨⟨.string, pos + 1, some (pos + 1 + key.length)⟩, 0⟩ := ⟨_, rfl⟩
  have hstring : Turns js (some k) ⟨pos, a ++ t :: c, some a.length⟩ 1
      ⟨pos + (key.length + 2), A ++ [u], some a.length⟩ := by
    rw [hA, hu, ← bump_middle]
    exact turns_string hkey h1 (fun i hi => by cases hi; simp) (by simp at hroom ⊢; omega)
  have hblank : Turns js (some k) ⟨pos + (key.length + 2), A ++ [u], some a.length⟩ 0
      ⟨pos + (key.length + 2) + b.length, A ++ [u], some a.length⟩ := turns_blank hb h2
  have hcolon : jsmnStep js (some k) ⟨pos + (key.length + 2) + b.length, A ++ [u], some a.length⟩ 58 =
      .ok (0, ⟨pos + (key.length + 2) + b.length + 1, A ++ [u], some A.length⟩) := by
    rw [jsmnStep_eq]
    refine congrArg Except.ok (congrArg (Prod.mk 0) ?_)
    rw [colon, if_neg (by simp)]
    simp
  have hblank' : Turns js (some k) ⟨pos + (key.length + 2) + b.length + 1, A ++ [u], some A.length⟩ 0
      ⟨pos + (key.length + 2) + b.length + 1 + b'.length, A ++ [u], some A.length⟩ := turns_blank hb' h4
  have hlenA : A.length = (a ++ t :: c).length := by simp [hA]
  obtain ⟨super, hsuper, hvalue⟩ := @ih (A ++ [u]) (some A.length) post h5 hstops
    (fun i hi => by cases hi; simp) (by simp [hlenA] at hroom ⊢; omega)
  have hlast : lastToken Span.isOpen (A ++ [u]) = some a.length := by
    rw [hA, List.append_assoc, List.cons_append]
    refine lastToken_middle hin.stop (List.forall_mem_append.mpr ⟨hin.closed, ?_⟩)
    rw [hu]
    exact List.forall_mem_singleton.mpr rfl
  rw [bump_middle, List.append_assoc, List.singleton_append] at hvalue
  have hrun := (((hstring.trans hblank).trans (Turns.one h3 (by decide) hcolon)).trans hblank').trans hvalue
  have hpos : pos + (34 :: key ++ [34] ++ b ++ 58 :: b' ++ w).length =
      pos + (key.length + 2) + b.length + 1 + b'.length + w.length := by
    simp
    omega
  rw [hpos, List.length_cons, Nat.add_comm ts.length, ← hA]
  rw [hu] at hrun
  rcases hsuper with rfl | rfl
  · refine ⟨A.length, .inr ⟨⟨⟨.string, pos + 1, some (pos + 1 + key.length)⟩, 1⟩, ?_, rfl⟩, hrun⟩
    rw [List.getElem?_append_right (Nat.le_refl _), Nat.sub_self]
    rfl
  · rw [← hu, hlast, hu] at hrun
    exact ⟨a.length, .inl rfl, hrun⟩

theorem Stops.blank {b : List UInt8} (hb : Blank b) (h : Stops post) : Stops (b ++ post) := by
  cases b with
  | nil => exact h
  | cons c b =>
    intro d hd
    cases hd
    rcases hb c List.mem_cons_self with rfl | rfl | rfl | rfl <;> rfl

theorem reads_empty {type : JsmnType} {b : List UInt8} (hb : Blank b) :
    Reads js k (.list type) pos b [] 0 := by
  intro a c t post hdrop _ _ _
  refine ⟨some a.length, ?_⟩
  rw [List.append_nil]
  exact turns_blank hb hdrop

/-- An entry, with the blanks around it. -/
theorem turns_entry {type : JsmnType} {b b' : List UInt8} {a c : List JsmnTok} {t : JsmnTok}
    (hb : Blank b) (hb' : Blank b') (ih : Reads js k (.entry type) (pos + b.length) w ts 1)
    (hdrop : js.drop pos = b ++ (w ++ (b' ++ post))) (hstops : Stops post) (hin : Inside type a t c)
    (hroom : (a ++ t :: c).length + ts.length ≤ k) :
    ∃ i, (i = a.length ∨ ∃ u ∈ (a ++ { t with size := t.size + 1 } :: (c ++ ts))[i]?,
        u.isContainer = false) ∧
      Turns js (some k) ⟨pos, a ++ t :: c, some a.length⟩ ts.length
        ⟨pos + b.length + w.length + b'.length, a ++ { t with size := t.size + 1 } :: (c ++ ts), some i⟩ := by
  have h2 := drop_append hdrop
  obtain ⟨i, hi, hrun⟩ := @ih a c t (b' ++ post) h2 (hstops.blank hb') hin hroom
  rw [List.append_assoc, List.cons_append] at hi hrun
  have hfirst : Turns js (some k) ⟨pos, a ++ t :: c, some a.length⟩ 0
      ⟨pos + b.length, a ++ t :: c, some a.length⟩ := turns_blank hb hdrop
  have hlast : Turns js (some k)
      ⟨pos + b.length + w.length, a ++ { t with size := t.size + 1 } :: (c ++ ts), some i⟩ 0
      ⟨pos + b.length + w.length + b'.length, a ++ { t with size := t.size + 1 } :: (c ++ ts), some i⟩ :=
    turns_blank hb' (drop_append h2)
  have := (hfirst.trans hrun).trans hlast
  rw [Nat.zero_add, Nat.add_zero] at this
  exact ⟨i, hi, this⟩

theorem reads_last {type : JsmnType} {b b' : List UInt8} (hb : Blank b) (hb' : Blank b')
    (ih : Reads js k (.entry type) (pos + b.length) w ts 1) :
    Reads js k (.list type) pos (b ++ w ++ b') ts 1 := by
  intro a c t post hdrop hstops hin hroom
  obtain ⟨i, -, hrun⟩ := turns_entry hb hb' ih (by rw [hdrop]; simp) hstops hin hroom
  refine ⟨some i, ?_⟩
  have hpos : pos + (b ++ w ++ b').length = pos + b.length + w.length + b'.length := by
    simp
    omega
  rw [hpos, List.append_assoc, List.cons_append]
  exact hrun

theorem reads_more {type : JsmnType} {b b' w' : List UInt8} {ts' : List JsmnTok} (hb : Blank b)
    (hb' : Blank b') (h : Spells (.entry type) (pos + b.length) w ts 1)
    (ih : Reads js k (.entry type) (pos + b.length) w ts 1)
    (ih' : Reads js k (.list type) (pos + b.length + w.length + b'.length + 1) w' ts' n) :
    Reads js k (.list type) pos (b ++ w ++ b' ++ 44 :: w') (ts ++ ts') (n + 1) := by
  intro a c t post hdrop hstops hin hroom
  have h1 : js.drop pos = b ++ (w ++ (b' ++ 44 :: (w' ++ post))) := by
    rw [hdrop]
    simp
  have h4 := drop_append (drop_append (drop_append h1))
  have hroom' : (a ++ t :: c).length + ts.length ≤ k := by
    simp at hroom ⊢
    omega
  obtain ⟨i, hi, hrun⟩ := turns_entry hb hb' ih h1 (fun d hd => by cases hd; rfl) hin hroom'
  have hin' := hin.grown h.closed (t.size + 1)
  have hcomma := turns_comma (k := k) h4 hin' hi
  obtain ⟨super, hlist⟩ := @ih' a (c ++ ts) { t with size := t.size + 1 } post
    (drop_append (w := [44]) h4) hstops hin' (by simp at hroom ⊢; omega)
  refine ⟨super, ?_⟩
  have hpos : pos + (b ++ w ++ b' ++ 44 :: w').length =
      pos + b.length + w.length + b'.length + 1 + w'.length := by
    simp
    omega
  have hsize : t.size + (n + 1) = t.size + 1 + n := by omega
  have htokens : a ++ { t with size := t.size + (n + 1) } :: c ++ (ts ++ ts') =
      a ++ { t with size := t.size + 1 + n } :: (c ++ ts) ++ ts' := by
    rw [hsize]
    simp
  rw [hpos, htokens, List.length_append]
  exact (hrun.trans hcomma).trans hlist

theorem Spells.reads {piece : Piece} (h : Spells piece pos w ts n) : Reads js k piece pos w ts n := by
  induction h with
  | primitive hfirst hw => exact reads_primitive hfirst hw
  | string hw =>
    intro tokens super post hdrop _ hsuper hroom
    have := turns_string hw hdrop hsuper hroom
    exact ⟨super, .inl rfl, by simpa using this⟩
  | container hb h ih => exact reads_container hb h ih
  | element _ ih => exact reads_element ih
  | member hkey hb hb' _ ih => exact reads_member hkey hb hb' ih
  | empty hb => exact reads_empty hb
  | last hb hb' _ ih => exact reads_last hb hb' ih
  | more hb hb' h _ ih ih' => exact reads_more hb hb' h ih ih'

/-- A text that spells a value is parsed to the tokens of the value, if there is room for them. -/
theorem parse_spelled {b b' : List UInt8} (hb : Blank b) (hb' : Blank b')
    (h : Spells .value b.length w ts 1) (hroom : ts.length ≤ k) :
    ∃ super, jsmnParse (b ++ w ++ b') (some k) jsmnInit =
      (.ok ts.length, ⟨(b ++ w ++ b').length, ts, super⟩) := by
  obtain ⟨js, hjs⟩ : ∃ js, js = b ++ w ++ b' := ⟨_, rfl⟩
  have h1 : js.drop jsmnInit.pos = b ++ (w ++ b') := by
    rw [hjs, List.append_assoc]
    rfl
  have hfirst : Turns js (some k) jsmnInit 0 ⟨b.length, [], none⟩ := by
    have : Turns js (some k) jsmnInit 0 ⟨jsmnInit.pos + b.length, [], none⟩ := turns_blank hb h1
    rwa [show jsmnInit.pos + b.length = b.length from Nat.zero_add _] at this
  have h2 : js.drop b.length = w ++ b' := by
    rw [hjs, List.append_assoc, List.drop_left]
  have hnil : Stops b' := by
    rw [← List.append_nil b']
    exact Stops.blank hb' fun c hc => by cases hc
  obtain ⟨super, -, hvalue⟩ := @Spells.reads js k _ _ _ _ _ h [] none b' h2 hnil
    (fun i hi => by cases hi) (by simpa using hroom)
  have hlast : Turns js (some k) ⟨b.length + w.length, ts, super⟩ 0
      ⟨b.length + w.length + b'.length, ts, super⟩ :=
    turns_blank hb' ((drop_append h2).trans (List.append_nil b').symm)
  have hturns := (hfirst.trans hvalue).trans hlast
  have hlen : js.length = b.length + w.length + b'.length := by
    rw [hjs, List.length_append, List.length_append]
  rw [← hjs, hlen]
  refine ⟨super, hturns.parseFrom_eq (.inl ⟨charAt_none (by rw [hlen]), ?_⟩)⟩
  have hclosed : ts.any (·.isOpen) = false := by
    rw [List.any_eq_false]
    exact fun t ht => by simp [h.closed t ht]
  rw [jsmnFinish, hclosed]
  simp

/-- `{"a":[1]}` -/
theorem parse_spelled_object : ∃ super,
    jsmnParse [123, 34, 97, 34, 58, 91, 49, 93, 125] (some 4) jsmnInit =
      (.ok 4, ⟨9, [⟨⟨.object, 0, some 9⟩, 1⟩, ⟨⟨.string, 2, some 3⟩, 1⟩, ⟨⟨.array, 5, some 8⟩, 1⟩,
        ⟨⟨.primitive, 6, some 7⟩, 0⟩], super⟩) := by
  have hblank : Blank [] := fun c hc => by cases hc
  have hone : Spells .value 6 [49] [⟨⟨.primitive, 6, some 7⟩, 0⟩] 1 :=
    .primitive (by decide) (List.forall_mem_singleton.mpr ⟨by decide, by decide, by decide, by decide⟩)
  have harray : Spells .value 5 [91, 49, 93] [⟨⟨.array, 5, some 8⟩, 1⟩, ⟨⟨.primitive, 6, some 7⟩, 0⟩] 1 :=
    .container (w := [49]) (.inr ⟨rfl, rfl, rfl⟩) (.last (b := []) (w := [49]) hblank hblank (.element hone))
  have hkey : Chars [97] := .plain (by decide) (by decide) (by decide) .nil
  have hmember : Spells (.entry .object) 1 [34, 97, 34, 58, 91, 49, 93] _ 1 :=
    .member (b := []) (w := [91, 49, 93]) hkey hblank hblank harray
  have hobject : Spells .value 0 [123, 34, 97, 34, 58, 91, 49, 93, 125] _ 1 :=
    .container (w := [34, 97, 34, 58, 91, 49, 93]) (.inl ⟨rfl, rfl, rfl⟩)
      (.last (b := []) (w := [34, 97, 34, 58, 91, 49, 93]) hblank hblank hmember)
  exact parse_spelled hblank hblank hobject (by decide)

end SimpleLink.Json
