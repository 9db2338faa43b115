import SimpleLink.HttpCli.Lines
import SimpleLink.Http.Strings

/-!
# Chunks of a response (`httpcli.c`)

`getChunkedData` reads the line with the size of a chunk, and behind the last chunk the trailer. `junk n` is
what the `n`-th call of `readLine` finds in its `c`, and `body` the memory from `body` on.
-/

namespace SimpleLink.HttpCli

open Lib
open Http.Strings (isSpace)

/-! ## The size of a chunk -/

def hexDigit (c : UInt8) : Option Nat :=
  if 48 ≤ c ∧ c ≤ 57 then some (c.toNat - 48)
  else if 97 ≤ c ∧ c ≤ 102 then some (c.toNat - 87)
  else if 65 ≤ c ∧ c ≤ 70 then some (c.toNat - 55)
  else none

def dropHexPrefix (string : Bytes) : Bytes :=
  match string with
  | 48 :: x :: digit :: _ =>
    if (x = 120 ∨ x = 88) ∧ (hexDigit digit).isSome then string.drop 2 else string
  | _ => string

/-- `strtoul` to the base 16. -/
def strtoulHex (string : Bytes) : Nat :=
  let string := string.dropWhile isSpace
  let minus := string.head? = some 45
  let string := dropHexPrefix (if minus ∨ string.head? = some 43 then string.tail else string)
  let digits := (string.map hexDigit).takeWhile Option.isSome
  let n := digits.foldl (fun n digit => n * 16 + digit.getD 0) 0
  if 2 ^ 32 ≤ n then 2 ^ 32 - 1 else if minus then (2 ^ 32 - n) % 2 ^ 32 else n

/-- What the last line that has been read leaves, and the size. -/
structure Header where
  read : LineResult
  chunkLen : Nat

/-- The line with the size. Of a line that is too long only one more part is read. -/
def readSize (slp : Bool) (fuel : Nat) (junk : Nat → UInt8) (cli : Receiver) (body : Bytes) (len : Nat) :
    Option Header :=
  (readLine slp fuel (junk 0) cli body len).bind fun r =>
    let chunkLen := strtoulHex r.line
    if r.ret < 0 ∨ r.moreFlag = false then some ⟨r, chunkLen⟩
    else (readLine slp fuel (junk 1) r.cli r.line len).map fun r => ⟨r, chunkLen⟩

def trailerLoop (slp : Bool) (fuel : Nat) (junk : Nat → UInt8) (len : Nat) :
    Nat → Nat → Bool → Receiver → Bytes → Option LineResult
  | 0, _, _, _, _ => none
  | turns + 1, n, lastFlag, cli, body =>
    (readLine slp fuel (junk n) cli body len).bind fun r =>
      if r.ret < 0 then some r
      else
        let body := if lastFlag then overwrite r.line 0 [97] else r.line
        if body.head? = some 0 then trailerLoop slp fuel junk len turns (n + 1) r.moreFlag r.cli body
        else some { r with line := body }

/-- What `getChunkedData` reads before the data. -/
def readChunkHeader (slp : Bool) (fuel : Nat) (junk : Nat → UInt8) (cli : Receiver) (body : Bytes)
    (len : Nat) : Option Header :=
  (readSize slp fuel junk cli body len).bind fun h =>
    if h.read.ret < 0 ∨ h.chunkLen ≠ 0 then some h
    else (trailerLoop slp fuel junk len fuel 2 true h.read.cli h.read.line).map fun r => ⟨r, 0⟩

/-! ## What is received for a header -/

/-- The calls that read the size have received `bytes`; `moreFlag` says whether there is more of the line. -/
inductive SizeRead (len : Nat) (body : Bytes) : Bytes → Nat → Bool → Prop where
  | one {bytes : Bytes} : Part len bytes false →
      SizeRead len body bytes (strtoulHex (overwrite body 0 (stored false bytes))) false
  | two {bytes bytes' : Bytes} {moreFlag : Bool} : Part len bytes true → Part len bytes' moreFlag →
      SizeRead len body (bytes ++ bytes') (strtoulHex (overwrite body 0 (stored true bytes))) moreFlag

/-- Just the line with the size has been received, behind the last chunk a line of the trailer too, or it
is reported why not. -/
inductive HeaderRead (slp : Bool) (start : Receiver) (h : Header) : Prop where
  | chunk (line : Bytes) (hline : lf ∉ line)
      (feeds : Feeds (Receiver.next slp) start (line ++ [lf]) h.read.cli) (hret : h.read.ret = 0)
      (hsize : h.chunkLen ≠ 0)
  | last (line trailer : Bytes) (hline : lf ∉ line) (htrailer : lf ∉ trailer)
      (feeds : Feeds (Receiver.next slp) start (line ++ [lf] ++ (trailer ++ [lf])) h.read.cli)
      (hret : h.read.ret = 0) (hsize : h.chunkLen = 0)
  | fails (bytes : Bytes) (reports : Reports slp start bytes h.read.cli h.read.ret)

/-- The peer does not close the connection while the size is read. -/
structure SizeOpen (slp : Bool) (start : Receiver) (len : Nat) : Prop where
  first : StaysOpen slp start (Unfinished len)
  second : ∀ bytes cli, Part len bytes true → Feeds (Receiver.next slp) start bytes cli →
    StaysOpen slp cli (Unfinished len)

/-- Nor while the trailer is read, and the last part that is read ends the line. -/
structure HeaderEnds (slp : Bool) (start : Receiver) (body : Bytes) (len : Nat) : Prop where
  size : SizeOpen slp start len
  trailer : ∀ bytes moreFlag cli, SizeRead len body bytes 0 moreFlag →
    Feeds (Receiver.next slp) start bytes cli → StaysOpen slp cli (Unfinished len)
  chunk : ∀ bytes size moreFlag cli, SizeRead len body bytes size moreFlag →
    Feeds (Receiver.next slp) start bytes cli → size ≠ 0 → moreFlag = false
  last : ∀ bytes bytes' moreFlag moreFlag' cli cli', SizeRead len body bytes 0 moreFlag →
    Feeds (Receiver.next slp) start bytes cli → Part len bytes' moreFlag' →
    Feeds (Receiver.next slp) cli bytes' cli' → moreFlag = false ∧ moreFlag' = false

/-! ### One call behind another -/

theorem Reports.behind {slp : Bool} {start cli cli' : Receiver} {bytes bytes' : Bytes} {ret : Int}
    (hfeeds : Feeds (Receiver.next slp) start bytes cli) (h : Reports slp cli bytes' cli' ret) :
    Reports slp start (bytes ++ bytes') cli' ret := by
  obtain ⟨hret, cli₁, hfeeds₁, hthere⟩ := h
  exact ⟨hret, cli₁, hfeeds.append hfeeds₁, hthere⟩

theorem GoesOn.behind {slp : Bool} {start cli cli' : Receiver} {bytes bytes' : Bytes} {ret : Int}
    (hfeeds : Feeds (Receiver.next slp) start bytes cli) (h : GoesOn slp cli bytes' cli' ret) :
    GoesOn slp start (bytes ++ bytes') cli' ret := by
  obtain ⟨cli₁, hfeeds₁, hthere⟩ := h
  exact ⟨cli₁, hfeeds.append hfeeds₁, hthere⟩

theorem GoesOn.readLine {slp : Bool} {start cli : Receiver} {bytes line : Bytes} {ret : Int}
    {fuel len : Nat} {c : UInt8} {r : LineResult} (h : GoesOn slp start bytes cli ret)
    (hrun : readLine slp fuel c cli line len = some r) : GoesOn slp start bytes r.cli r.ret := by
  obtain ⟨cli₁, hfeeds, hclosed, hle, -⟩ := h
  obtain rfl : slp = false := by
    cases slp with
    | false => rfl
    | true => exact absurd hclosed (bufferedRecv_slp cli₁ [0])
  obtain ⟨hle', hlt⟩ := readLoop_answers hrun
  exact ⟨cli₁, hfeeds, hclosed, Nat.le_trans hle' hle, fun hret => Nat.lt_of_lt_of_le (hlt hret) hle⟩

theorem Part.count {len : Nat} {bytes : Bytes} {moreFlag : Bool} (h : Part len bytes moreFlag) :
    bytes.count lf = if moreFlag then 0 else 1 := by
  cases h with
  | line hread =>
    rw [List.count_append, List.count_eq_zero_of_not_mem hread.1]
    rfl
  | full hlf _ _ => exact List.count_eq_zero_of_not_mem hlf

theorem SizeRead.count {len size : Nat} {body bytes : Bytes} {moreFlag : Bool}
    (h : SizeRead len body bytes size moreFlag) : bytes.count lf = if moreFlag then 0 else 1 := by
  cases h with
  | one hpart => exact hpart.count
  | two hpart hpart' =>
    rw [List.count_append, hpart.count, hpart'.count]
    exact Nat.zero_add _

theorem SizeRead.line {len size : Nat} {body bytes : Bytes} (h : SizeRead len body bytes size false) :
    ∃ line, lf ∉ line ∧ bytes = line ++ [lf] := by
  have hline : ∀ {bytes}, Part len bytes false → ∃ line, lf ∉ line ∧ bytes = line ++ [lf] := fun hpart => by
    cases hpart with
    | line hread => exact ⟨_, hread.1, rfl⟩
  cases h with
  | one hpart => exact hline hpart
  | two hpart hpart' =>
    obtain ⟨line, hlf, rfl⟩ := hline hpart'
    refine ⟨_ ++ line, ?_, (List.append_assoc ..).symm⟩
    rw [List.mem_append]
    exact fun hmem => hmem.elim (fun hmem => absurd (hpart.mem_lf.1 hmem) Bool.noConfusion) hlf

/-! ## Reading the size -/

/-- The size has been read, or it is reported why not. -/
inductive SizeResult (slp : Bool) (start : Receiver) (body : Bytes) (len : Nat) (h : Header) : Prop where
  | read (bytes : Bytes) (hread : SizeRead len body bytes h.chunkLen h.read.moreFlag)
      (feeds : Feeds (Receiver.next slp) start bytes h.read.cli) (hret : h.read.ret = 0)
  | fails (bytes : Bytes) (reports : Reports slp start bytes h.read.cli h.read.ret)

section Header

variable {slp : Bool} {fuel : Nat} {junk : Nat → UInt8} {start : Receiver} {body : Bytes} {len : Nat}
  {h : Header}

theorem readSize_inv (hrun : readSize slp fuel junk start body len = some h) :
    ∃ r, readLine slp fuel (junk 0) start body len = some r ∧ h.chunkLen = strtoulHex r.line ∧
      ((r.ret < 0 ∨ r.moreFlag = false) ∧ h.read = r ∨
        ¬ (r.ret < 0 ∨ r.moreFlag = false) ∧
          readLine slp fuel (junk 1) r.cli r.line len = some h.read) := by
  obtain ⟨r, hfirst, hrun⟩ := Option.bind_eq_some_iff.1 hrun
  refine ⟨r, hfirst, ?_⟩
  dsimp only at hrun
  split at hrun
  · rename_i hend
    cases hrun
    exact ⟨rfl, .inl ⟨hend, rfl⟩⟩
  · rename_i hend
    obtain ⟨r', hsecond, rfl⟩ := Option.map_eq_some_iff.1 hrun
    exact ⟨rfl, .inr ⟨hend, hsecond⟩⟩

theorem readSize_cases (hok : start.Ok) (hrun : readSize slp fuel junk start body len = some h) :
    SizeResult slp start body len h ∧ SizeOpen slp start len ∨
      ¬ SizeOpen slp start len ∧ ∃ bytes, lf ∉ bytes ∧ GoesOn slp start bytes h.read.cli h.read.ret := by
  obtain ⟨r, hfirst, hsize, hrest⟩ := readSize_inv hrun
  rcases readLine_cases hok hfirst with ⟨hread, hopen⟩ | ⟨bytes, hbytes, hgoes⟩
  · have hunique : ∀ bytes cli, Part len bytes true → Feeds (Receiver.next slp) start bytes cli →
        r = ⟨cli, 0, overwrite body 0 (stored true bytes), true⟩ := fun _ _ hpart hfeeds =>
      hread.unique hpart hfeeds
    cases hread with
    | part bytes hpart hfeeds hret hline =>
      rcases hrest with ⟨hend, hsame⟩ | ⟨hend, hsecond⟩
      · have hmore : r.moreFlag = false := hend.resolve_left (by omega)
        refine .inl ⟨.read bytes ?_ (hsame ▸ hfeeds) (hsame ▸ hret), hopen, fun bytes' cli hpart' hfeeds' => ?_⟩
        · rw [hsize, hsame, hline, hmore]
          exact .one (hmore ▸ hpart)
        · rw [hunique bytes' cli hpart' hfeeds'] at hmore
          exact Bool.noConfusion hmore
      · have hmore : r.moreFlag = true := eq_true_of_ne_false fun h => hend (.inr h)
        rw [hmore] at hpart hline
        rcases readLine_cases (feeds_left hok hfeeds).1 hsecond with ⟨hread', hopen'⟩ | ⟨bytes', hbytes', hgoes⟩
        · refine .inl ⟨?_, hopen, fun bytes' cli hpart' hfeeds' => ?_⟩
          · cases hread' with
            | part bytes' hpart' hfeeds' hret' _ =>
              refine .read (bytes ++ bytes') ?_ (hfeeds.append hfeeds') hret'
              rw [hsize, hline]
              exact .two hpart hpart'
            | fails bytes' _ hreports _ => exact .fails (bytes ++ bytes') (.behind hfeeds hreports)
          · rw [hunique bytes' cli hpart' hfeeds'] at hopen'
            exact hopen'
        · refine .inr ⟨fun h => ?_, bytes ++ bytes', ?_, hgoes.behind hfeeds⟩
          · obtain ⟨cli', hfeeds', hclosed, -⟩ := hgoes
            exact h.second bytes r.cli hpart hfeeds bytes' cli' hfeeds' hbytes' hclosed
          · rw [List.mem_append]
            exact fun hmem =>
              hmem.elim (fun hmem => absurd (hpart.mem_lf.1 hmem) Bool.noConfusion) hbytes'.1
    | fails bytes _ hreports _ =>
      have hret := hreports.ret
      rcases hrest with ⟨-, hsame⟩ | ⟨hend, -⟩
      · refine .inl ⟨.fails bytes (hsame ▸ hreports), hopen, fun bytes' cli hpart' hfeeds' => ?_⟩
        rw [hunique bytes' cli hpart' hfeeds'] at hret
        exact absurd hret (Int.lt_irrefl 0)
      · exact absurd (.inl hret) hend
  · refine .inr ⟨fun h => ?_, bytes, hbytes.1, ?_⟩
    · obtain ⟨cli', hfeeds', hclosed, -⟩ := hgoes
      exact h.first bytes cli' hfeeds' hbytes hclosed
    · rcases hrest with ⟨-, hsame⟩ | ⟨-, hsecond⟩
      · exact hsame ▸ hgoes
      · exact hgoes.readLine hsecond

theorem readSize_of_sizeRead {size : Nat} {moreFlag : Bool} {cli : Receiver} {bytes : Bytes} (hok : start.Ok)
    (hopen : SizeOpen slp start len) (hrun : readSize slp fuel junk start body len = some h)
    (hread : SizeRead len body bytes size moreFlag) (hfeeds : Feeds (Receiver.next slp) start bytes cli) :
    h.read.ret = 0 ∧ h.read.cli = cli ∧ h.chunkLen = size := by
  obtain ⟨r, hfirst, hsize, hrest⟩ := readSize_inv hrun
  have hline : ∀ {start c line fuel r}, start.Ok → StaysOpen slp start (Unfinished len) →
      readLine slp fuel c start line len = some r → LineRead slp start line len r :=
    fun hok hopen hrun => (readLine_cases hok hrun).elim And.left fun ⟨bytes, hbytes, cli', hfeeds, hclosed, _⟩ =>
      absurd hclosed (hopen bytes cli' hfeeds hbytes)
  cases hread with
  | one hpart =>
    obtain rfl := (hline hok hopen.first hfirst).unique hpart hfeeds
    rcases hrest with ⟨-, hsame⟩ | ⟨hend, -⟩
    · rw [hsame]
      exact ⟨rfl, rfl, hsize⟩
    · exact absurd (.inr rfl) hend
  | two hpart hpart' =>
    obtain ⟨cli₁, hfeeds₁, hfeeds₂⟩ := hfeeds.split
    obtain rfl := (hline hok hopen.first hfirst).unique hpart hfeeds₁
    rcases hrest with ⟨hend, -⟩ | ⟨-, hsecond⟩
    · exact absurd hend (by simp)
    · have hread := hline (feeds_left hok hfeeds₁).1 (hopen.second _ _ hpart hfeeds₁) hsecond
      rw [hread.unique hpart' hfeeds₂]
      exact ⟨rfl, rfl, hsize⟩

theorem readSize_mono {fuel' : Nat} (hrun : readSize slp fuel junk start body len = some h)
    (hle : fuel ≤ fuel') : readSize slp fuel' junk start body len = some h := by
  obtain ⟨r, hfirst, hrest⟩ := Option.bind_eq_some_iff.1 hrun
  refine Option.bind_eq_some_iff.2 ⟨r, readLine_mono hfirst hle, ?_⟩
  dsimp only at hrest ⊢
  split at hrest
  · rename_i hend
    rwa [if_pos hend]
  · rename_i hend
    rw [if_neg hend]
    obtain ⟨r', hsecond, heq⟩ := Option.map_eq_some_iff.1 hrest
    exact Option.map_eq_some_iff.2 ⟨r', readLine_mono hsecond hle, heq⟩

theorem readSize_returns (hok : start.Ok) (hopen : SizeOpen slp start len) :
    ∃ fuel h, readSize slp fuel junk start body len = some h := by
  obtain ⟨fuel, r, hfirst⟩ := readLine_returns hok hopen.first (junk 0) body
  by_cases hend : r.ret < 0 ∨ r.moreFlag = false
  · exact ⟨fuel, ⟨r, strtoulHex r.line⟩, Option.bind_eq_some_iff.2 ⟨r, hfirst, if_pos hend⟩⟩
  · obtain ⟨hret, hmore⟩ := not_or.1 hend
    rcases readLine_cases hok hfirst with ⟨hread, -⟩ | ⟨bytes, hbytes, cli', hfeeds, hclosed, -⟩
    · cases hread with
      | part bytes hpart hfeeds _ _ =>
        rw [eq_true_of_ne_false hmore] at hpart
        obtain ⟨fuel', r', hsecond⟩ := readLine_returns (feeds_left hok hfeeds).1
          (hopen.second bytes r.cli hpart hfeeds) (junk 1) r.line
        refine ⟨max fuel fuel', ⟨r', strtoulHex r.line⟩, Option.bind_eq_some_iff.2
          ⟨r, readLine_mono hfirst (Nat.le_max_left ..), ?_⟩⟩
        refine (if_neg hend).trans (Option.map_eq_some_iff.2 ⟨r', ?_, rfl⟩)
        exact readLine_mono hsecond (Nat.le_max_right ..)
      | fails _ _ hreports _ => exact absurd hreports.ret hret
    · exact absurd hclosed (hopen.first bytes cli' hfeeds hbytes)

/-! ## The header -/

theorem trailerLoop_once (turns n : Nat) (cli : Receiver) (body : Bytes) :
    trailerLoop slp fuel junk len (turns + 1) n true cli body =
      (readLine slp fuel (junk n) cli body len).map fun r =>
        if r.ret < 0 then r else { r with line := overwrite r.line 0 [97] } := by
  rw [trailerLoop]
  cases readLine slp fuel (junk n) cli body len with
  | none => rfl
  | some r =>
    have hhead : (overwrite r.line 0 [97]).head? ≠ some 0 := by
      rw [overwrite_zero]
      simp
    show (if r.ret < 0 then some r
      else if (overwrite r.line 0 [97]).head? = some 0 then
        trailerLoop slp fuel junk len turns (n + 1) r.moreFlag r.cli (overwrite r.line 0 [97])
      else some { r with line := overwrite r.line 0 [97] }) =
        some (if r.ret < 0 then r else { r with line := overwrite r.line 0 [97] })
    rw [if_neg hhead]
    split <;> rfl

theorem readChunkHeader_inv (hrun : readChunkHeader slp fuel junk start body len = some h) :
    ∃ s, readSize slp fuel junk start body len = some s ∧
      ((s.read.ret < 0 ∨ s.chunkLen ≠ 0) ∧ h = s ∨
        s.chunkLen = 0 ∧ h.chunkLen = 0 ∧ ∃ r,
          readLine slp fuel (junk 2) s.read.cli s.read.line len = some r ∧ h.read.cli = r.cli ∧
            h.read.ret = r.ret) := by
  obtain ⟨s, hsize, hrun⟩ := Option.bind_eq_some_iff.1 hrun
  refine ⟨s, hsize, ?_⟩
  split at hrun
  · rename_i hend
    exact .inl ⟨hend, (Option.some.inj hrun).symm⟩
  · rename_i hend
    have hzero : s.chunkLen = 0 := not_not.1 (not_or.1 hend).2
    obtain ⟨r', htrailer, rfl⟩ := Option.map_eq_some_iff.1 hrun
    cases fuel with
    | zero => cases htrailer
    | succ fuel =>
      rw [trailerLoop_once] at htrailer
      obtain ⟨r, hline, rfl⟩ := Option.map_eq_some_iff.1 htrailer
      refine .inr ⟨hzero, rfl, r, hline, ?_⟩
      dsimp only
      split <;> exact ⟨rfl, rfl⟩

theorem GoesOn.not_headerRead {bytes : Bytes} (hgoes : GoesOn slp start bytes h.read.cli h.read.ret)
    (hcount : bytes.count lf < if h.chunkLen = 0 then 2 else 1) : ¬ HeaderRead slp start h := by
  intro hread
  cases hread with
  | chunk line _ hfeeds _ hsize =>
    have hle := (hgoes.isPrefix hfeeds).sublist.count_le lf
    rw [List.count_append] at hle
    rw [if_neg hsize] at hcount
    have hone : [lf].count lf = 1 := rfl
    omega
  | last line trailer _ _ hfeeds _ hsize =>
    have hle := (hgoes.isPrefix hfeeds).sublist.count_le lf
    rw [List.count_append, List.count_append, List.count_append] at hle
    rw [if_pos hsize] at hcount
    have hone : [lf].count lf = 1 := rfl
    omega
  | fails bytes' hreports => exact hgoes.not_reports hreports

theorem headerEnds_of_read (hok : start.Ok) (hrun : readChunkHeader slp fuel junk start body len = some h)
    (hread : HeaderRead slp start h) : HeaderEnds slp start body len := by
  obtain ⟨s, hsize, hrest⟩ := readChunkHeader_inv hrun
  rcases readSize_cases hok hsize with ⟨-, hopen⟩ | ⟨-, bytes, hbytes, hgoes⟩
  · have hunique : ∀ {size moreFlag bytes cli}, SizeRead len body bytes size moreFlag →
        Feeds (Receiver.next slp) start bytes cli →
          s.read.ret = 0 ∧ s.read.cli = cli ∧ s.chunkLen = size := fun hsized hfeeds =>
      readSize_of_sizeRead hok hopen hsize hsized hfeeds
    have htrailer : ∀ bytes moreFlag cli, SizeRead len body bytes 0 moreFlag →
        Feeds (Receiver.next slp) start bytes cli → h.chunkLen = 0 ∧ ∃ line r,
          StaysOpen slp cli (Unfinished len) ∧ LineRead slp cli line len r ∧ h.read.cli = r.cli ∧
            h.read.ret = r.ret := by
      intro bytes moreFlag cli hsized hfeeds
      obtain ⟨hret, hcli, hlen⟩ := hunique hsized hfeeds
      rcases hrest with ⟨hend, -⟩ | ⟨-, hzero, r, hline, hcli', hret'⟩
      · rcases hend with hneg | hne
        · omega
        · exact absurd hlen hne
      · rw [hcli] at hline
        rcases readLine_cases (feeds_left hok hfeeds).1 hline with ⟨hline', hopen'⟩ | ⟨t, ht, hgoes⟩
        · exact ⟨hzero, _, r, hopen', hline', hcli', hret'⟩
        · rw [← hcli', ← hret'] at hgoes
          refine absurd hread ((hgoes.behind hfeeds).not_headerRead ?_)
          rw [List.count_append, hsized.count, List.count_eq_zero_of_not_mem ht.1, if_pos hzero]
          split <;> decide
    refine ⟨hopen, fun bytes moreFlag cli hsized hfeeds => ?_,
      fun bytes size moreFlag cli hsized hfeeds hne => ?_,
      fun bytes bytes' moreFlag moreFlag' cli cli' hsized hfeeds hpart hfeeds' => ?_⟩
    · obtain ⟨-, -, -, hopen', -⟩ := htrailer bytes moreFlag cli hsized hfeeds
      exact hopen'
    · obtain ⟨hret, hcli, hlen⟩ := hunique hsized hfeeds
      rcases hrest with ⟨-, rfl⟩ | ⟨hzero, -⟩
      · cases hread with
        | chunk line _ hfeeds' _ _ =>
          rw [hcli] at hfeeds'
          obtain rfl := feeds_bytes_unique hok hfeeds hfeeds'
          have hcount := hsized.count
          rw [List.count_append] at hcount
          cases moreFlag with
          | false => rfl
          | true => exact absurd hcount (Nat.succ_ne_zero _)
        | last _ _ _ _ _ _ hzero => exact absurd (hlen.symm.trans hzero) hne
        | fails _ hreports => exact absurd hreports.ret (by omega)
      · exact absurd (hlen.symm.trans hzero) hne
    · obtain ⟨hzero, line, r, -, hline, hcli, hret⟩ := htrailer bytes moreFlag cli hsized hfeeds
      obtain rfl := hline.unique hpart hfeeds'
      cases hread with
      | chunk _ _ _ _ hne => exact absurd hzero hne
      | last line' trailer _ _ hfeeds₂ _ _ =>
        rw [hcli] at hfeeds₂
        have heq := feeds_bytes_unique hok (hfeeds.append hfeeds') hfeeds₂
        have hcount : bytes.count lf + bytes'.count lf = line'.count lf + 1 + (trailer.count lf + 1) := by
          have hcount := congrArg (List.count lf) heq
          simpa only [List.count_append, List.count_singleton_self] using hcount
        rw [hsized.count, hpart.count] at hcount
        cases moreFlag <;> cases moreFlag' <;> simp at hcount ⊢ <;> omega
      | fails _ hreports =>
        have hneg := hreports.ret
        rw [hret] at hneg
        exact absurd hneg (Int.lt_irrefl 0)
  · have hcount : bytes.count lf < if h.chunkLen = 0 then 2 else 1 := by
      rw [List.count_eq_zero_of_not_mem hbytes]
      split <;> decide
    rcases hrest with ⟨-, rfl⟩ | ⟨-, -, r, hline, hcli, hret⟩
    · exact absurd hread (hgoes.not_headerRead hcount)
    · have hgoes' := hgoes.readLine hline
      rw [← hcli, ← hret] at hgoes'
      exact absurd hread (hgoes'.not_headerRead hcount)

end Header

theorem readChunkHeader_iff (slp : Bool) {cli : Receiver} (hok : cli.Ok) (junk : Nat → UInt8) (body : Bytes)
    (len : Nat) :
    (∃ fuel h, readChunkHeader slp fuel junk cli body len = some h ∧ HeaderRead slp cli h) ↔
      HeaderEnds slp cli body len := by
  constructor
  · rintro ⟨fuel, h, hrun, hread⟩
    exact headerEnds_of_read hok hrun hread
  · intro hends
    obtain ⟨fuel, s, hsize⟩ : ∃ fuel s, readSize slp fuel junk cli body len = some s :=
      readSize_returns hok hends.size
    have hresult : SizeResult slp cli body len s :=
      (readSize_cases hok hsize).elim And.left fun h => absurd hends.size h.1
    have hstop : s.read.ret < 0 ∨ s.chunkLen ≠ 0 → readChunkHeader slp fuel junk cli body len = some s :=
      fun hend => Option.bind_eq_some_iff.2 ⟨s, hsize, if_pos hend⟩
    cases hresult with
    | fails bytes hreports => exact ⟨fuel, s, hstop (.inl hreports.ret), .fails bytes hreports⟩
    | read bytes hsized hfeeds hret =>
      by_cases hzero : s.chunkLen = 0
      · rw [hzero] at hsized
        have hok' := (feeds_left hok hfeeds).1
        have hopen := hends.trailer _ _ _ hsized hfeeds
        obtain ⟨fuel', r, hline⟩ := readLine_returns hok' hopen (junk 2) s.read.line
        have hread := (readLine_cases hok' hline).elim And.left fun ⟨t, ht, cli', hfeeds', hclosed, _⟩ =>
          absurd hclosed (hopen t cli' hfeeds' ht)
        have hfuel : fuel' ≤ max fuel fuel' + 1 := by omega
        have hrun : readChunkHeader slp (max fuel fuel' + 1) junk cli body len =
            some ⟨if r.ret < 0 then r else { r with line := overwrite r.line 0 [97] }, 0⟩ := by
          refine Option.bind_eq_some_iff.2 ⟨s, readSize_mono hsize (by omega), ?_⟩
          have hgo : ¬ (s.read.ret < 0 ∨ s.chunkLen ≠ 0) := by omega
          rw [if_neg hgo, trailerLoop_once, readLine_mono hline hfuel]
          rfl
        refine ⟨_, _, hrun, ?_⟩
        cases hread with
        | part bytes' hpart hfeeds' hret' _ =>
          obtain ⟨hmore, hmore'⟩ := hends.last _ _ _ _ _ _ hsized hfeeds hpart hfeeds'
          rw [hmore] at hsized
          rw [hmore'] at hpart
          obtain ⟨line, hlf, rfl⟩ := hsized.line
          have hlast : SizeRead len body bytes' _ false := .one hpart
          obtain ⟨trailer, hlf', rfl⟩ := hlast.line
          have hgo : ¬ r.ret < 0 := by omega
          rw [if_neg hgo]
          exact .last line trailer hlf hlf' (hfeeds.append hfeeds') hret' rfl
        | fails bytes' _ hreports _ =>
          rw [if_pos hreports.ret]
          exact .fails (bytes ++ bytes') (.behind hfeeds hreports)
      · have hmore := hends.chunk _ _ _ _ hsized hfeeds hzero
        rw [hmore] at hsized
        obtain ⟨line, hlf, rfl⟩ := hsized.line
        exact ⟨fuel, s, hstop (.inr hzero), .chunk line hlf hfeeds hret hzero⟩

/-! ## All the readers -/

/-- Each reader returns, having received just its line (or a part of it, or the two lines behind the last
chunk) or reporting why not, if and only if the peer does not close the connection within what it reads and,
for a header, the last part that it reads ends a line. What is received comes off what the client has not
handed over. -/
theorem line_readers (slp : Bool) {cli : Receiver} (hok : cli.Ok) :
    (∀ c line len, (∃ fuel r, readLine slp fuel c cli line len = some r ∧ LineRead slp cli line len r) ↔
      StaysOpen slp cli (Unfinished len)) ∧
    ((∃ fuel cli' ret, skipLine slp fuel cli = some (cli', ret) ∧ Skipped slp cli cli' ret) ↔
      StaysOpen slp cli (lf ∉ ·)) ∧
    (∀ junk body len,
      (∃ fuel h, readChunkHeader slp fuel junk cli body len = some h ∧ HeaderRead slp cli h) ↔
        HeaderEnds slp cli body len) ∧
    ∀ bytes cli', Feeds (Receiver.next slp) cli bytes cli' → cli.left = bytes ++ cli'.left :=
  ⟨readLine_iff slp hok, skipLine_iff slp hok, readChunkHeader_iff slp hok,
    fun _ _ hfeeds => (feeds_left hok hfeeds).2⟩

/-- A client with two bytes of a line in its buffer, and a server that has sent nothing more. -/
def heldLine (b : UInt8) : Receiver := ⟨65 :: b :: List.replicate 126 0, 0, 2, ⟨[], []⟩⟩

theorem heldLine_ok (b : UInt8) : (heldLine b).Ok where
  size := rfl
  range _ := show 0 + 2 ≤ HTTPCli_BUF_LEN by decide

/-- The line is all there. -/
theorem line_readers_held : ∃ fuel r, readLine false fuel 0 (heldLine lf) [0, 0, 0, 0] 4 = some r ∧
    LineRead false (heldLine lf) [0, 0, 0, 0] 4 r := by
  refine ((line_readers false (heldLine_ok lf)).1 0 _ 4).2 ?_
  have hfeeds : Feeds (Receiver.next false) (heldLine lf) ([65] ++ [lf])
      { heldLine lf with bufptr := 2, buflen := 0 } := .cons rfl (.cons rfl (.nil _))
  exact staysOpen_of_feeds hfeeds fun _ => not_unfinished_of_lf

/-- Only its carriage return is there, or a letter: the first call never returns, and the second one stores
what has not been received. -/
theorem closed_within_line :
    (∀ fuel, readLine false fuel 0 (heldLine cr) [0, 0, 0, 0] 4 = none) ∧
      (readLine false 5 0 (heldLine 66) [0, 0, 0, 0] 4).map (fun r => (r.ret, r.line)) =
        some (0, [65, 66, 66, 66]) := by
  have hrecv : ({ heldLine cr with bufptr := 2, buflen := 0 } : Receiver).recvChar false cr =
      ({ heldLine cr with bufptr := 2, buflen := 0 }, 0, cr) := rfl
  have hloop : ∀ fuel line,
      readLoop false 4 fuel { heldLine cr with bufptr := 2, buflen := 0 } cr 1 line = none := by
    intro fuel line
    induction fuel with
    | zero => rfl
    | succ fuel ih =>
      rw [readLoop, hrecv]
      exact ih
  refine ⟨fun fuel => ?_, by decide +kernel⟩
  rcases fuel with _ | _ | fuel
  · rfl
  · rfl
  · exact hloop fuel [65, 0, 0, 0]

end SimpleLink.HttpCli
