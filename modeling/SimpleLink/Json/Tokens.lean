import SimpleLink.Json.Jsmn

/-!
# The tokens

Whatever the calls are, the tokens that they leave nest and spell what they are for. A call that runs out of
tokens is taken up by the next one, and a call that only counts agrees with one that has the tokens.
-/

namespace SimpleLink.Json

variable {js : List UInt8} {num : Option Nat} {k n count : Nat} {p q : JsmnParser} {c : UInt8}

/-! ## What has been parsed is well formed -/

/-- Of two tokens the first is over before the second begins, or has it inside. -/
def Nest (a b : Span) : Prop :=
  a.start < b.start ∧ ((∃ e, a.stop = some e ∧ e ≤ b.start) ∨
    a.isContainer = true ∧ ∀ e, a.stop = some e → ∃ e', b.stop = some e' ∧ e' < e)

/-- A token in the text up to `pos`. -/
structure Within (js : List UInt8) (pos : Nat) (t : Span) : Prop where
  start : t.start < pos
  stop : ∀ e ∈ t.stop, t.start ≤ e ∧ e ≤ pos
  container : t.stop = none → t.isContainer
  spelled : Spelled js t

/-- The parser between two turns, on the text `js`. -/
structure ParserOk (js : List UInt8) (p : JsmnParser) : Prop where
  pos : p.pos ≤ js.length
  nest : p.spans.Pairwise Nest
  within : ∀ t ∈ p.spans, Within js p.pos t
  idle : p.toksuper = none → ∀ t ∈ p.spans, t.stop ≠ none

theorem Within.mono {pos pos' : Nat} {t : Span} (h : Within js pos t) (hle : pos ≤ pos') :
    Within js pos' t where
  start := Nat.lt_of_lt_of_le h.start hle
  stop e he := (h.stop e he).imp_right (Nat.le_trans · hle)
  container := h.container
  spelled := h.spelled

theorem isOpen_false {t : Span} (h : t.isOpen = false) : t.stop ≠ none := by
  intro hnone
  rw [Span.isOpen, hnone] at h
  cases h

theorem Turn.parserOk (h : Turn js k p n q) (hok : ParserOk js p) : ParserOk js q := by
  cases h with
  | @add t pos super hroom hstart hpos hstop hlen hspelled hopen hsuper =>
    have hspans : (JsmnParser.mk pos (bump p.toksuper (p.tokens ++ [⟨t, 0⟩])) super).spans =
        p.spans ++ [t] := by
      rw [JsmnParser.spans, bump_spans, List.map_append]
      rfl
    refine ⟨hlen, ?_, ?_, fun hnone => ?_⟩
    · rw [hspans]
      refine List.pairwise_append.mpr ⟨hok.nest, List.pairwise_singleton _ _, fun a ha b hb => ?_⟩
      obtain rfl := List.mem_singleton.mp hb
      have hw := hok.within a ha
      refine ⟨Nat.lt_of_lt_of_le hw.start hstart, ?_⟩
      cases he : a.stop with
      | none => exact .inr ⟨hw.container he, fun e h => by cases h⟩
      | some e => exact .inl ⟨e, rfl, Nat.le_trans (hw.stop e he).2 hstart⟩
    · rw [hspans]
      refine List.forall_mem_append.mpr ⟨fun u hu => ?_, fun u hu => ?_⟩
      · exact (hok.within u hu).mono (Nat.le_of_lt (Nat.lt_of_le_of_lt hstart hpos))
      · obtain rfl := List.mem_singleton.mp hu
        exact ⟨hpos, hstop, fun h => (hopen h).1, hspelled⟩
    · rw [hspans]
      refine List.forall_mem_append.mpr ⟨hok.idle (hsuper hnone), fun u hu => ?_⟩
      obtain rfl := List.mem_singleton.mp hu
      exact fun h => (hopen h).2 hnone
  | @close a b t heq ht hb hlt htype =>
    have hspans : p.spans = a.map JsmnTok.toSpan ++ t.toSpan :: b.map JsmnTok.toSpan := by
      rw [JsmnParser.spans, heq, List.map_append, List.map_cons]
    have hspans' : (JsmnParser.mk (p.pos + 1) (a ++ { t with stop := some (p.pos + 1) } :: b)
        (lastToken Span.isOpen a)).spans = a.map JsmnTok.toSpan ++
          { t.toSpan with stop := some (p.pos + 1) } :: b.map JsmnTok.toSpan := by
      rw [JsmnParser.spans, List.map_append, List.map_cons]
    have hnest := hok.nest
    have hwithin := hok.within
    rw [hspans] at hnest hwithin
    obtain ⟨hna, hntb, hnab⟩ := List.pairwise_append.mp hnest
    obtain ⟨hnt, hnb⟩ := List.pairwise_cons.mp hntb
    have hwt := hwithin t.toSpan (by simp)
    refine ⟨hlt, ?_, ?_, fun hnone => ?_⟩
    · rw [hspans']
      refine List.pairwise_append.mpr ⟨hna, List.pairwise_cons.mpr ⟨fun u hu => ?_, hnb⟩, ?_⟩
      · -- what comes after the container is over
        obtain ⟨v, hv, rfl⟩ := List.mem_map.mp hu
        obtain ⟨e, he⟩ := Option.ne_none_iff_exists'.mp (isOpen_false (hb v hv))
        refine ⟨(hnt _ hu).1, .inr ⟨hwt.container ht, fun e' he' => ⟨e, he, ?_⟩⟩⟩
        cases he'
        exact Nat.lt_succ_of_le ((hwithin _ (List.mem_append_right _ (List.mem_cons_of_mem _ hu))).stop e he).2
      · intro u hu v hv
        rcases List.mem_cons.mp hv with rfl | hv
        · obtain ⟨hstart, hnest⟩ := hnab u hu t.toSpan List.mem_cons_self
          refine ⟨hstart, hnest.imp_right (And.imp_right fun h e he => ?_)⟩
          obtain ⟨e', he', -⟩ := h e he
          cases ht.symm.trans he'
        · exact hnab u hu v (List.mem_cons_of_mem _ hv)
    · rw [hspans']
      have hmono : ∀ u ∈ a.map JsmnTok.toSpan ++ t.toSpan :: b.map JsmnTok.toSpan,
          Within js (p.pos + 1) u := fun u hu => (hwithin u hu).mono (Nat.le_succ _)
      refine List.forall_mem_append.mpr ⟨fun u hu => hmono u (by simp [hu]), ?_⟩
      refine List.forall_mem_cons.mpr ⟨?_, fun u hu => hmono u (by simp [hu])⟩
      have hpos := hwt.start
      refine ⟨Nat.lt_succ_of_lt hpos, fun e he => ?_, (fun h => by cases h), ?_⟩
      · cases he
        exact ⟨by dsimp only; omega, Nat.le_refl _⟩
      · have hspelled := hwt.spelled
        rcases htype with ⟨htype, hc⟩ | ⟨htype, hc⟩
        all_goals
          rw [Spelled, htype] at hspelled
          rw [Spelled]
          dsimp only
          rw [htype]
          refine ⟨hspelled.1, fun e he => ?_⟩
          cases he
          exact hc
    · rw [hspans']
      refine List.forall_mem_append.mpr ⟨fun u hu => ?_, List.forall_mem_cons.mpr
        ⟨Option.some_ne_none _, fun u hu => ?_⟩⟩
      · obtain ⟨v, hv, rfl⟩ := List.mem_map.mp hu
        exact isOpen_false (lastToken_none hnone v hv)
      · obtain ⟨v, hv, rfl⟩ := List.mem_map.mp hu
        exact isOpen_false (hb v hv)
  | move hlt hsuper =>
    refine ⟨hlt, hok.nest, fun t ht => (hok.within t ht).mono (Nat.le_succ _), fun hnone => ?_⟩
    rcases hsuper hnone with hnone | hnil
    · exact hok.idle hnone
    · intro t ht
      rw [JsmnParser.spans] at ht
      dsimp only at ht
      rw [hnil] at ht
      cases ht

theorem Turn.length (h : Turn js k p n q) :
    q.tokens.length = p.tokens.length + n ∧ q.tokens.length ≤ max p.tokens.length k := by
  cases h with
  | @add t pos super hroom =>
    have hlen := length_bump p.toksuper (p.tokens ++ [⟨t, 0⟩])
    rw [List.length_append, List.length_singleton] at hlen
    exact ⟨hlen, by dsimp only; rw [hlen]; omega⟩
  | close heq => simp [heq]
  | move => exact ⟨rfl, Nat.le_max_left _ _⟩

theorem Turns.parserOk (h : Turns js (some k) p n q) (hok : ParserOk js p) :
    ParserOk js q ∧ q.tokens.length = p.tokens.length + n ∧
      q.tokens.length ≤ max p.tokens.length k := by
  induction h with
  | refl p => exact ⟨hok, rfl, Nat.le_max_left _ _⟩
  | step hchar hs _ ih =>
    have hturn := jsmnStep_turn hchar hs
    obtain ⟨hq, hlen, hmax⟩ := ih (hturn.parserOk hok)
    obtain ⟨hlen', hmax'⟩ := hturn.length
    exact ⟨hq, by omega, by omega⟩

theorem parserOk_init (js : List UInt8) : ParserOk js jsmnInit where
  pos := Nat.zero_le _
  nest := List.Pairwise.nil
  within t ht := by cases ht
  idle _ t ht := by cases ht

theorem Spelled.mono {js' : List UInt8} {t : Span} (h : Spelled js t) (hpre : js <+: js') :
    Spelled js' t := by
  obtain ⟨rest, rfl⟩ := hpre
  have hget : ∀ {i : Nat} {c : UInt8}, js[i]? = some c → (js ++ rest)[i]? = some c := by
    intro i c hi
    rw [List.getElem?_append_left (List.getElem?_eq_some_iff.mp hi).1, hi]
  rw [Spelled] at h ⊢
  cases ht : t.type with
  | primitive =>
    rw [ht] at h
    obtain ⟨e, he, hlt, hplain⟩ := h
    refine ⟨e, he, hlt, fun i hi hie => ?_⟩
    obtain ⟨c, hc, hp⟩ := hplain i hi hie
    exact ⟨c, hget hc, hp⟩
  | string =>
    rw [ht] at h
    obtain ⟨hpos, hq, e, he, hq'⟩ := h
    exact ⟨hpos, hget hq, e, he, hget hq'⟩
  | object =>
    rw [ht] at h
    exact ⟨hget h.1, fun e he => hget (h.2 e he)⟩
  | array =>
    rw [ht] at h
    exact ⟨hget h.1, fun e he => hget (h.2 e he)⟩

theorem ParserOk.mono {js' : List UInt8} (h : ParserOk js p) (hpre : js <+: js') :
    ParserOk js' p where
  pos := Nat.le_trans h.pos hpre.length_le
  nest := h.nest
  within t ht := { h.within t ht with spelled := (h.within t ht).spelled.mono hpre }
  idle := h.idle

/-- A parser after calls on a text that grows, each with an array of any size that holds the tokens so far. -/
inductive Calls : List UInt8 → JsmnParser → Prop
  | init (js : List UInt8) : Calls js jsmnInit
  | call {js js' : List UInt8} {p q : JsmnParser} {num : Nat} {r : Except JsmnErr Nat} : Calls js p →
      js <+: js' → p.tokens.length ≤ num → jsmnParse js' (some num) p = (r, q) → r ≠ .error .outside → Calls js' q

theorem Calls.parserOk (h : Calls js p) : ParserOk js p := by
  induction h with
  | init js => exact parserOk_init js
  | @call js js' p q num r _ hpre _ hrun _ ih =>
    obtain ⟨n, q', r', hturns, -, hrun'⟩ := parseFrom_ends js' (some num) 0 p
    obtain ⟨-, rfl⟩ := Prod.mk.inj (hrun'.symm.trans hrun)
    exact (hturns.parserOk (ih.mono hpre)).1

/-- Nothing but a comma reads outside the array, and only without a parent. -/
theorem jsmnStep_outside (hchar : charAt js p.pos = some c)
    (h : jsmnStep js (some k) p c = .error .outside) : p.toksuper = none := by
  have hasks := actAt_asks hchar
  rw [jsmnStep_eq] at h
  generalize actAt js p.pos c = act at h hasks
  cases hasks with
  | fail _ hne => exact absurd (Except.error.inj h) hne
  | opens => cases (openToken_error h).1
  | closes => cases closeBracket_error (k := k) h
  | token => cases (addToken_error h).1
  | skip => cases h
  | colon => cases h
  | comma => exact (comma_error h).2

/-- After any calls the tokens nest and spell what they are for. A call takes no more tokens than it has,
closes all of them when it succeeds, and reads outside the array only where none is open. -/
theorem tokens_nested (h : Calls js p) :
    p.spans.Pairwise Nest ∧ (∀ t ∈ p.spans, Within js p.pos t) ∧
      ∀ num r q, p.tokens.length ≤ num → jsmnParse js (some num) p = (r, q) →
        q.tokens.length ≤ num ∧
        (∀ n, r = .ok n → q.tokens.length = p.tokens.length + n ∧ ∀ t ∈ q.spans, t.stop ≠ none) ∧
        (r = .error .outside → ∀ t ∈ q.spans, t.stop ≠ none) := by
  refine ⟨h.parserOk.nest, h.parserOk.within, fun num r q hroom hrun => ?_⟩
  obtain ⟨n, q', r', hturns, hends, hrun'⟩ := parseFrom_ends js (some num) 0 p
  obtain ⟨rfl, rfl⟩ := Prod.mk.inj (hrun'.symm.trans hrun)
  obtain ⟨hok, hlen, hmax⟩ := hturns.parserOk h.parserOk
  rw [Nat.max_eq_right hroom] at hmax
  refine ⟨hmax, fun m hr => ?_, fun hr => ?_⟩
  · rcases hends with ⟨-, hfin⟩ | ⟨c, e, -, -, herr⟩
    · rw [hfin, jsmnFinish] at hr
      split_ifs at hr with hopen
      cases hr
      refine ⟨by omega, fun t ht hnone => hopen ?_⟩
      obtain ⟨u, hu, rfl⟩ := List.mem_map.mp ht
      exact List.any_eq_true.mpr ⟨u, hu, Option.isNone_iff_eq_none.mpr hnone⟩
    · cases hr.symm.trans herr
  · rcases hends with ⟨-, hfin⟩ | ⟨c, e, hchar, hstep, herr⟩
    · rw [hfin, jsmnFinish] at hr
      split_ifs at hr
      cases hr
    · cases hr.symm.trans herr
      exact hok.idle (jsmnStep_outside hchar hstep)

/-- An array in another, for which there is no room at first. -/
theorem tokens_nested_array :
    ∃ p, Calls [91, 91, 93, 93] p ∧ p.tokens.length = 2 ∧ p.spans.Pairwise Nest := by
  have hfirst : Calls [91, 91, 93, 93] ⟨1, [⟨⟨.array, 0, none⟩, 0⟩], some 0⟩ :=
    @Calls.call _ _ _ _ 1 (.error .noMem) (.init []) List.nil_prefix (Nat.zero_le 1) rfl (fun h => by cases h)
  have hsecond : Calls [91, 91, 93, 93] ⟨4, [⟨⟨.array, 0, some 4⟩, 1⟩, ⟨⟨.array, 1, some 3⟩, 0⟩], none⟩ :=
    @Calls.call _ _ _ _ 2 (.ok 1) hfirst (List.prefix_refl _) (Nat.le_succ 1) rfl (fun h => by cases h)
  exact ⟨_, hsecond, rfl, (tokens_nested hsecond).1⟩

/-! ## A call that runs out of tokens -/

theorem addToken_mono {k' pos : Nat} {t : Span} (hle : k ≤ k')
    (h : addToken (some k) p pos t = .ok (n, q)) : addToken (some k') p pos t = .ok (n, q) := by
  obtain ⟨rfl, hroom, rfl⟩ := addToken_some h
  rw [addToken, if_pos (Nat.lt_of_lt_of_le hroom hle)]

theorem comma_num (p : JsmnParser) (k k' : Nat) : comma (some k) p = comma (some k') p := by
  cases hs : p.toksuper with
  | none => simp only [comma, hs]
  | some i => simp only [comma, hs]

theorem jsmnStep_mono {k' : Nat} (hle : k ≤ k') (h : jsmnStep js (some k) p c = .ok (n, q)) :
    jsmnStep js (some k') p c = .ok (n, q) := by
  rw [jsmnStep_eq] at h ⊢
  cases hact : actAt js p.pos c with
  | opens type =>
    rw [hact] at h
    obtain ⟨rfl, hroom, rfl⟩ := openToken_some h
    rw [Act.run, openToken, addToken, if_pos (Nat.lt_of_lt_of_le hroom hle)]
    rfl
  | token pos t =>
    rw [hact] at h
    exact addToken_mono hle h
  | comma =>
    rw [hact] at h
    exact (comma_num p k' k).trans h
  | _ =>
    rw [hact] at h
    exact h

theorem Turns.mono {k' : Nat} (hle : k ≤ k') (h : Turns js (some k) p n q) :
    Turns js (some k') p n q := by
  induction h with
  | refl p => exact .refl p
  | step hchar hs _ ih => exact .step hchar (jsmnStep_mono hle hs) ih

theorem Turns.length (h : Turns js (some k) p n q) : q.tokens.length = p.tokens.length + n := by
  induction h with
  | refl p => rfl
  | step hchar hs _ ih => rw [ih, (jsmnStep_turn hchar hs).length.1, Nat.add_assoc]

/-- Of what has been counted before only the sum depends. -/
theorem parseFrom_add (js : List UInt8) (num : Option Nat) (m count : Nat) (p : JsmnParser) :
    parseFrom js num (m + count) p =
      ((parseFrom js num count p).1.map (m + ·), (parseFrom js num count p).2) := by
  obtain ⟨n, q, r, hturns, hends, hrun⟩ := parseFrom_ends js num count p
  rw [hrun, hturns.parseFrom]
  rcases hends with ⟨hchar, rfl⟩ | ⟨c, e, hchar, hs, rfl⟩
  · rw [parseFrom_none hchar, jsmnFinish, jsmnFinish]
    split_ifs
    · rfl
    · exact congrArg (fun i => (Except.ok i, q)) (Nat.add_assoc m count n)
  · rw [parseFrom_error hchar hs]
    rfl

/-- Calls that run out of tokens, none of them with more than `num`. -/
inductive Retries (js : List UInt8) (num : Nat) : JsmnParser → JsmnParser → Prop
  | refl (p : JsmnParser) : Retries js num p p
  | call {k : Nat} {p p' q : JsmnParser} : k ≤ num → jsmnParse js (some k) p = (.error .noMem, p') →
      Retries js num p' q → Retries js num p q

/-- What such calls have done is what the first turns of a call with all the tokens do. -/
theorem Retries.turns (h : Retries js k p q) : ∃ n, Turns js (some k) p n q := by
  induction h with
  | refl p => exact ⟨0, .refl p⟩
  | call hle hrun _ ih =>
    obtain ⟨n, hq⟩ := ih
    obtain ⟨m, p', r, hp, -, hrun'⟩ := parseFrom_ends js _ 0 _
    obtain ⟨-, rfl⟩ := Prod.mk.inj (hrun'.symm.trans hrun)
    exact ⟨_, (hp.mono hle).trans hq⟩

/-- A caller that runs out of tokens and calls again with more of them, as often as it takes, ends as one that
had them from the start; the last call does not count the tokens of the calls before. -/
theorem parse_resumes (h : Retries js k p q) :
    jsmnParse js (some k) p =
      ((jsmnParse js (some k) q).1.map (q.tokens.length - p.tokens.length + ·),
        (jsmnParse js (some k) q).2) := by
  obtain ⟨n, hturns⟩ := h.turns
  have hlen : q.tokens.length - p.tokens.length = n := by
    rw [hturns.length]
    omega
  rw [hlen]
  exact (hturns.parseFrom 0).trans (by rw [Nat.zero_add]; exact parseFrom_add js (some k) n 0 q)

theorem parse_resumes_array : ∃ q, Retries [91, 91, 93, 93] 2 jsmnInit q ∧
    (jsmnParse [91, 91, 93, 93] (some 2) jsmnInit).1 =
      (jsmnParse [91, 91, 93, 93] (some 2) q).1.map (1 + ·) := by
  have h : Retries [91, 91, 93, 93] 2 jsmnInit ⟨1, [⟨⟨.array, 0, none⟩, 0⟩], some 0⟩ :=
    .call (Nat.le_succ 1) rfl (.refl _)
  exact ⟨_, h, congrArg Prod.fst (parse_resumes h)⟩

/-! ## A call that only counts -/

theorem closeToken_pos {type : JsmnType} (h : closeToken p type = .ok q) : q.pos = p.pos + 1 := by
  rw [closeToken] at h
  cases hl : lastToken Span.isOpen p.tokens with
  | none =>
    rw [hl] at h
    cases h
  | some i =>
    rw [hl] at h
    dsimp only at h
    split_ifs at h
    cases h
    rfl

/-- The same turn without an array. -/
theorem jsmnStep_count {p' : JsmnParser} (hpos : p'.pos = p.pos)
    (h : jsmnStep js (some k) p c = .ok (n, q)) :
    ∃ q', jsmnStep js none p' c = .ok (n, q') ∧ q'.pos = q.pos ∧ q'.tokens = p'.tokens := by
  rw [jsmnStep_eq] at h ⊢
  rw [hpos]
  cases hact : actAt js p.pos c with
  | fail e =>
    rw [hact] at h
    cases h
  | opens type =>
    rw [hact] at h
    obtain ⟨rfl, -, rfl⟩ := openToken_some h
    exact ⟨_, rfl, congrArg (· + 1) hpos, rfl⟩
  | closes type =>
    rw [hact] at h
    obtain ⟨rfl, hclose⟩ := closeBracket_some (k := k) h
    exact ⟨_, rfl, (congrArg (· + 1) hpos).trans (closeToken_pos hclose).symm, rfl⟩
  | token pos t =>
    rw [hact] at h
    obtain ⟨rfl, -, rfl⟩ := addToken_some h
    exact ⟨_, rfl, rfl, rfl⟩
  | skip =>
    rw [hact] at h
    cases h
    exact ⟨_, rfl, congrArg (· + 1) hpos, rfl⟩
  | colon =>
    rw [hact] at h
    cases h
    exact ⟨_, rfl, congrArg (· + 1) hpos, rfl⟩
  | comma =>
    rw [hact] at h
    obtain ⟨rfl, -, i, rfl⟩ := comma_some h
    exact ⟨_, rfl, congrArg (· + 1) hpos, rfl⟩

theorem Turns.counting (h : Turns js (some k) p n q) : ∀ {p' : JsmnParser}, p'.pos = p.pos →
    ∃ q', Turns js none p' n q' ∧ q'.pos = q.pos ∧ q'.tokens = p'.tokens := by
  induction h with
  | refl p => exact fun hpos => ⟨_, .refl _, hpos, rfl⟩
  | step hchar hs _ ih =>
    intro p' hpos
    obtain ⟨p'', hs', hpos', htok⟩ := jsmnStep_count hpos hs
    obtain ⟨q', hturns, hq, htok'⟩ := ih hpos'
    exact ⟨q', .step (by rw [hpos]; exact hchar) hs' hturns, hq, htok'.trans htok⟩

/-- Where tokens are short the array is full, and a token is counted without it. -/
theorem jsmnStep_noMem {p' : JsmnParser} (hchar : charAt js p.pos = some c) (hpos : p'.pos = p.pos)
    (h : jsmnStep js (some k) p c = .error .noMem) :
    k ≤ p.tokens.length ∧ ∃ q', jsmnStep js none p' c = .ok (1, q') := by
  have hasks := actAt_asks hchar
  rw [jsmnStep_eq] at h ⊢
  rw [hpos]
  generalize actAt js p.pos c = act at h hasks
  cases hasks with
  | fail hne => exact absurd (Except.error.inj h) hne
  | opens => exact ⟨(openToken_error h).2, _, rfl⟩
  | closes => cases closeBracket_error (k := k) h
  | token => exact ⟨(addToken_error h).2, _, rfl⟩
  | skip => cases h
  | colon => cases h
  | comma => cases (comma_error h).1

/-- Any other error is one with any array. -/
theorem Ends.mono {k' : Nat} {r : Except JsmnErr Nat} (hne : r ≠ .error .noMem)
    (h : Ends js (some k) count q r) : Ends js (some k') count q r := by
  rcases h with h | ⟨c, e, hchar, hs, rfl⟩
  · exact .inl h
  refine .inr ⟨c, e, hchar, ?_, rfl⟩
  rw [jsmnStep_eq] at hs ⊢
  cases hact : actAt js q.pos c with
  | opens type =>
    rw [hact] at hs
    exact absurd (congrArg _ (openToken_error hs).1) hne
  | token pos t =>
    rw [hact] at hs
    exact absurd (congrArg _ (addToken_error hs).1) hne
  | comma =>
    rw [hact] at hs
    exact (comma_num q k' k).trans hs
  | _ =>
    rw [hact] at hs
    exact hs

theorem parseFrom_count (h : (parseFrom js num count p).1 = .ok n) : count ≤ n := by
  obtain ⟨m, q, r, -, hends, hrun⟩ := parseFrom_ends js num count p
  have hr : r = .ok n := (congrArg Prod.fst hrun).symm.trans h
  rcases hends with ⟨-, hfin⟩ | ⟨c, e, -, -, herr⟩
  · rw [hr, jsmnFinish] at hfin
    split_ifs at hfin
    cases hfin
    exact Nat.le_add_right count m
  · cases hr.symm.trans herr

/-- A call that only counts tells how many tokens the text has: a call that succeeds returns the same number,
an array of that size is as good as any larger one, and never too small. -/
theorem count_agrees (js : List UInt8) (n : Nat) :
    (∀ num, (jsmnParse js (some num) jsmnInit).1 = .ok n →
      (jsmnParse js none jsmnInit).1 = .ok n ∧ n ≤ num) ∧
    ((jsmnParse js none jsmnInit).1 = .ok n →
      ∀ num, n ≤ num → (jsmnParse js (some num) jsmnInit).1 ≠ .error .noMem ∧
        jsmnParse js (some num) jsmnInit = jsmnParse js (some n) jsmnInit) := by
  have hends := fun num => parseFrom_ends js (some num) 0 jsmnInit
  refine ⟨fun num hr => ?_, fun hcount => ?_⟩
  · obtain ⟨m, q, r, hturns, hends, hrun⟩ := hends num
    obtain ⟨q', hturns', hpos, htok⟩ := hturns.counting rfl
    have hlen := (hturns.parserOk (parserOk_init js)).2
    have hr' : r = .ok n := (congrArg Prod.fst hrun).symm.trans hr
    rcases hends with ⟨hchar, hfin⟩ | ⟨c, e, -, -, herr⟩
    · rw [hr', jsmnFinish] at hfin
      split_ifs at hfin
      obtain rfl := Except.ok.inj hfin
      refine ⟨?_, by simp [jsmnInit] at hlen; omega⟩
      have hnone : charAt js q'.pos = none := by rw [hpos]; exact hchar
      have hrun' := (hturns'.parseFrom 0).trans (parseFrom_none hnone)
      refine (congrArg Prod.fst hrun').trans ?_
      rw [jsmnFinish, htok]
      rfl
    · cases hr'.symm.trans herr
  · have hroom : ∀ num, n ≤ num → (jsmnParse js (some num) jsmnInit).1 ≠ .error .noMem := by
      intro num hle hr
      obtain ⟨m, q, r, hturns, hends, hrun⟩ := hends num
      have hr' : r = .error .noMem := (congrArg Prod.fst hrun).symm.trans hr
      obtain ⟨q', hturns', hpos, htok⟩ := hturns.counting rfl
      have hlen := (hturns.parserOk (parserOk_init js)).2.1
      rcases hends with ⟨-, hfin⟩ | ⟨c, e, hchar, hs, herr⟩
      · rw [hr', jsmnFinish] at hfin
        split_ifs at hfin
        cases hfin
      · obtain rfl := Except.error.inj (hr'.symm.trans herr)
        obtain ⟨hfull, q'', hs'⟩ := jsmnStep_noMem hchar hpos hs
        have hchar' : charAt js q'.pos = some c := by rw [hpos]; exact hchar
        have hmore := (hturns'.parseFrom 0).trans (parseFrom_ok hchar' hs')
        have hge := parseFrom_count (congrArg Prod.fst hmore ▸ hcount)
        simp [jsmnInit] at hlen
        omega
    refine fun num hle => ⟨hroom num hle, ?_⟩
    obtain ⟨m, q, r, hturns, hends, hrun⟩ := hends n
    have hne : r ≠ .error .noMem := fun h => hroom n (Nat.le_refl n) ((congrArg Prod.fst hrun).trans h)
    exact ((hturns.mono hle).parseFrom_eq (hends.mono hne)).trans hrun.symm

end SimpleLink.Json
