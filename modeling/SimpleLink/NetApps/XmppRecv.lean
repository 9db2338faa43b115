import SimpleLink.Http.Handshake
import SimpleLink.Lib.CString
import SimpleLink.NetApps.SmtpDialogue
import SimpleLink.NetApps.XmppConnect

/-!
# Receiving a message (`xmpp.c`)

`sl_NetAppXmppRecv` takes a message apart in `g_RecvBuf`, which still holds what came before. What is read or
written outside an array, or through a null pointer, has no outcome.
-/

namespace SimpleLink.NetApps.XmppRecv

open Lib Lib.CString
open Smtp (Bytes ascii ascii_ofList)

def bodyTag : Bytes := ascii "<body>"
def closeTag : Bytes := ascii "</body>"
def fromTag : Bytes := ascii "from="

/-- The globals of the reception. -/
structure RecvState where
  recvBuf : Bytes
  remoteJid : Bytes
  rosterJid : Bytes
  jabberMsgSentFromPeer : Nat
  firstClientConnect : Int

/-- The arrays of the globals have their sizes. -/
structure RecvState.Sized (g : RecvState) : Prop where
  recvBuf : g.recvBuf.length = 2048
  remoteJid : g.remoteJid.length = 128
  rosterJid : g.rosterJid.length = 128

/-- What a call leaves: its result, the globals and the buffers of the caller. -/
structure Result where
  status : Int
  g : RecvState
  pRemoteJid : Bytes
  pMessage : Bytes

/-! ## The function -/

/-- The name of the sender is stored, in three places. -/
def storeFrom (g : RecvState) (pRemoteJid from' : Bytes) : Option (RecvState × Bytes) :=
  (strcpy pRemoteJid 0 from').bind fun pRemoteJid =>
  (strcpy g.remoteJid 0 from').bind fun remoteJid =>
  (str remoteJid).bind fun t =>
  (strcpy g.rosterJid 0 t).map fun rosterJid =>
    ({ g with remoteJid := remoteJid, rosterJid := rosterJid, jabberMsgSentFromPeer := 1 }, pRemoteJid)

def takeMessage (status : Int) (g : RecvState) (pRemoteJid pMessage : Bytes) : Option Result :=
  (strstr bodyTag g.recvBuf).bind fun
  | none => none
  | some pMsgPtr =>
    (strstr closeTag g.recvBuf).bind fun
    | none => none
    | some pBodyPtr =>
      let g := { g with recvBuf := g.recvBuf.set pBodyPtr 0 }
      (str (g.recvBuf.drop (pMsgPtr + 6))).bind fun msg =>
        if msg.length + 1 < pMessage.length then
          (strcpy pMessage 0 msg).map fun pMessage => ⟨status, g, pRemoteJid, pMessage⟩
        else some ⟨-3, g, pRemoteJid, pMessage⟩

/-- From the search for the sender on; the body has been ended. -/
def takeFrom (status : Int) (g : RecvState) (pRemoteJid pMessage : Bytes) : Option Result :=
  (strstr fromTag g.recvBuf).bind fun
  | none => none
  | some k =>
    (scan g.recvBuf (k + 6) 34).bind fun pBodyPtr =>
    let quoted := g.recvBuf
    let g := { g with recvBuf := quoted.set pBodyPtr 0 }
    (str (g.recvBuf.drop (k + 6))).bind fun from' =>
      if from'.length + 1 < pRemoteJid.length then
        (storeFrom g pRemoteJid from').bind fun (g, pRemoteJid) =>
          takeMessage status { g with recvBuf := g.recvBuf.set pBodyPtr 34 } pRemoteJid pMessage
      else some ⟨-2, g, pRemoteJid, pMessage⟩

def takeApart (status : Int) (g : RecvState) (pRemoteJid pMessage : Bytes) : Option Result :=
  (str g.recvBuf).bind fun _ =>
  (strstr bodyTag g.recvBuf).bind fun
  | none => some ⟨-1, g, pRemoteJid, pMessage⟩
  | some pBasePtr =>
    (scan g.recvBuf (pBasePtr + 6) 60).bind fun pBodyPtr =>
      takeFrom status { g with recvBuf := g.recvBuf.set pBodyPtr 0 } pRemoteJid pMessage

/-- `sl_NetAppXmppRecv`; the socket returns the bytes `p`, none of them if it has been closed. The buffers of the
caller have the lengths that it says. -/
def slNetAppXmppRecv (g : RecvState) (p pRemoteJid pMessage : Bytes) : Option Result :=
  let g := { g with firstClientConnect := 0, rosterJid := List.replicate 128 0 }
  if p = [] then some ⟨0, g, pRemoteJid, pMessage⟩
  else takeApart p.length { g with recvBuf := overwrite g.recvBuf 0 p } pRemoteJid pMessage

/-! ## What is to be stored -/

/-- The value of the first attribute `from`. -/
def fromValue (p : Bytes) : Option Bytes :=
  (findToken fromTag p).bind fun k =>
    match p.drop (k + 5) with
    | q :: rest => if q = 34 ∨ q = 39 then (findToken [q] rest).map rest.take else none
    | [] => none

/-- The text between the first "<body>" and the "</body>" behind it. -/
def bodyText (p : Bytes) : Option Bytes :=
  (findToken bodyTag p).bind fun i => (findToken closeTag (p.drop (i + 6))).map (p.drop (i + 6)).take

/-- A stanza with both, and with room for both. -/
def Fitting (p pRemoteJid pMessage : Bytes) : Prop :=
  0 ∉ p ∧ ∃ f t, fromValue p = some f ∧ bodyText p = some t ∧ f.length + 1 ≤ pRemoteJid.length ∧ f.length ≤ 127 ∧
    t.length + 1 ≤ pMessage.length

/-- An error leaves the buffers of the caller alone and is not for a stanza that fits; otherwise they hold the sender
and the text. -/
def ResultRight (p pRemoteJid pMessage : Bytes) (r : Result) : Prop :=
  r.status < 0 ∧ r.pRemoteJid = pRemoteJid ∧ r.pMessage = pMessage ∧ ¬ Fitting p pRemoteJid pMessage ∨
    0 ≤ r.status ∧ ∃ f t, fromValue p = some f ∧ bodyText p = some t ∧ 0 ∉ f ∧ 0 ∉ t ∧
      f ++ [0] <+: r.pRemoteJid ∧ t ++ [0] <+: r.pMessage

def RecvRight (g : RecvState) (p pRemoteJid pMessage : Bytes) : Prop :=
  ∃ r, slNetAppXmppRecv g p pRemoteJid pMessage = some r ∧ ResultRight p pRemoteJid pMessage r

/-! ## When it is stored -/

/-- The delimiters that the function looks for: `x` is in front of the body and `t` its text up to the next "<",
`y` is in front of the sender and `v` what stands between the byte behind "from=" and the next double quote; the end
of the text has been replaced by a zero then. -/
structure Delimited (buf x t r y : Bytes) (q : UInt8) (v r' : Bytes) : Prop where
  body : findToken bodyTag (buf.takeWhile (· ≠ 0)) = some x.length
  text : buf = x ++ bodyTag ++ t ++ 60 :: r
  noBracket : 60 ∉ t
  sender : findToken fromTag ((x ++ bodyTag ++ t).takeWhile (· ≠ 0)) = some y.length
  value : x ++ bodyTag ++ t ++ 0 :: r = y ++ fromTag ++ q :: v ++ 34 :: r'
  noQuote : 34 ∉ v

def cstr (mem : Bytes) : Bytes := mem.takeWhile (· ≠ 0)

/-- What becomes of a message whose delimiters are there. -/
def Outcome (p pRemoteJid pMessage x t v : Bytes) : Prop :=
  if (cstr v).length + 1 < pRemoteJid.length then
    (cstr v).length ≤ 127 ∧ closeTag <:+: cstr (x ++ bodyTag ++ t) ∧
      if (cstr t).length + 1 < pMessage.length then fromValue p = some (cstr v) ∧ bodyText p = some (cstr t)
      else cstr v ++ [0] <+: pRemoteJid ∧ ¬ Fitting p pRemoteJid pMessage
  else ¬ Fitting p pRemoteJid pMessage

def RecvCond (g : RecvState) (p pRemoteJid pMessage : Bytes) : Prop :=
  let buf := p ++ g.recvBuf.drop p.length
  p ≠ [] ∧ 0 ∈ buf ∧
    (¬ bodyTag <:+: cstr buf ∨
      ∃ x t r y q v r', Delimited buf x t r y q v r' ∧ Outcome p pRemoteJid pMessage x t v)

/-! ## The steps -/

theorem bodyTag_ne : bodyTag ≠ [] := by decide

theorem closeTag_ne : closeTag ≠ [] := by decide

variable {g : RecvState} {pRemoteJid pMessage : Bytes} {status : Int}

theorem strcpy_front {mem v : Bytes} (h : v.length + 1 ≤ mem.length) :
    strcpy mem 0 v = some (v ++ [0] ++ mem.drop (v ++ [0]).length) := by
  rw [strcpy_eq (by omega), List.take_zero, List.nil_append, List.append_assoc, List.length_append,
    List.length_singleton, Nat.zero_add]
  rfl

theorem storeFrom_eq {v : Bytes} (hv : 0 ∉ v) (hg : g.remoteJid.length = 128) (hr : g.rosterJid.length = 128)
    (hjid : v.length + 1 < pRemoteJid.length) (hlen : v.length ≤ 127) :
    ∃ remoteJid rosterJid, storeFrom g pRemoteJid v =
      some ({ g with remoteJid := remoteJid, rosterJid := rosterJid, jabberMsgSentFromPeer := 1 },
        v ++ [0] ++ pRemoteJid.drop (v ++ [0]).length) := by
  refine ⟨v ++ [0] ++ g.remoteJid.drop (v ++ [0]).length, v ++ [0] ++ g.rosterJid.drop (v ++ [0]).length, ?_⟩
  rw [storeFrom, strcpy_front (by omega), Option.bind_some, strcpy_front (by omega), Option.bind_some,
    List.append_assoc v [0] (g.remoteJid.drop _), List.singleton_append, str_append hv, Option.bind_some,
    strcpy_front (by omega), Option.map_some]

theorem storeFrom_some {v : Bytes} {r : RecvState × Bytes} (h : storeFrom g pRemoteJid v = some r)
    (hg : g.remoteJid.length = 128) : v.length ≤ 127 := by
  obtain ⟨_, -, h⟩ := Option.bind_eq_some_iff.1 h
  obtain ⟨_, hcopy, -⟩ := Option.bind_eq_some_iff.1 h
  by_contra hlong
  rw [strcpy_eq_none.2 (by omega)] at hcopy
  cases hcopy

section Delimiters

variable {x t r y v r' : Bytes} {q : UInt8}

theorem drop_body (x t r : Bytes) (c : UInt8) :
    (x ++ bodyTag ++ t ++ c :: r).drop (x.length + 6) = t ++ c :: r := by
  rw [List.append_assoc]
  exact List.drop_left' (by rw [List.length_append]; rfl)

theorem closeTag_lt {b : Nat} (ht : 60 ∉ t) (hclose : findToken closeTag (cstr (x ++ bodyTag ++ t)) = some b) :
    b < x.length + 6 := by
  obtain ⟨a, c, hsplit, rfl⟩ := findToken_split hclose
  obtain ⟨rest, hrest⟩ : cstr (x ++ bodyTag ++ t) <+: x ++ bodyTag ++ t := List.takeWhile_prefix _
  rw [hsplit, List.append_assoc, List.append_assoc] at hrest
  by_contra hlate
  have hdrop := congrArg (List.drop a.length) hrest
  have hlen : (x ++ bodyTag).length = x.length + 6 := by rw [List.length_append]; rfl
  rw [List.drop_left, List.drop_append, List.drop_eq_nil_of_le (by omega), List.nil_append] at hdrop
  have hmem : 60 ∈ closeTag ++ (c ++ rest) := List.mem_append_left _ (by decide)
  exact ht (List.mem_of_mem_drop (hdrop ▸ hmem))

theorem zero_notMem_cstr (l : Bytes) : 0 ∉ cstr l := zero_notMem_takeWhile l

theorem cstr_ended (l r : Bytes) : cstr (l ++ 0 :: r) = cstr l := takeWhile_append_zero l r

theorem takeMessage_eq (ht : 60 ∉ t) (hbody : findToken bodyTag (cstr (x ++ bodyTag ++ t)) = some x.length)
    (hg : g.recvBuf = x ++ bodyTag ++ t ++ 0 :: r) (status : Int) (pRemoteJid pMessage : Bytes) :
    if closeTag <:+: cstr (x ++ bodyTag ++ t) then
      ∃ g', takeMessage status g pRemoteJid pMessage =
        if (cstr t).length + 1 < pMessage.length then
          some ⟨status, g', pRemoteJid, cstr t ++ [0] ++ pMessage.drop (cstr t ++ [0]).length⟩
        else some ⟨-3, g', pRemoteJid, pMessage⟩
    else takeMessage status g pRemoteJid pMessage = none := by
  have hzero : 0 ∈ g.recvBuf := by simp [hg]
  have hcstr : g.recvBuf.takeWhile (· ≠ 0) = cstr (x ++ bodyTag ++ t) := by
    rw [hg]
    exact cstr_ended _ r
  have hnext : strstr bodyTag g.recvBuf = some (some x.length) := by rw [strstr_eq hzero, hcstr, hbody]
  have hclose : strstr closeTag g.recvBuf = some (findToken closeTag (cstr (x ++ bodyTag ++ t))) := by
    rw [strstr_eq hzero, hcstr]
  unfold takeMessage
  rw [hnext, Option.bind_some]
  dsimp only
  rw [hclose, Option.bind_some]
  cases hfind : findToken closeTag (cstr (x ++ bodyTag ++ t)) with
  | none =>
    rw [findToken_eq_none closeTag_ne] at hfind
    rw [if_neg hfind]
  | some b =>
    have hinfix := (findToken_isSome closeTag_ne).1 (Option.isSome_of_eq_some hfind)
    rw [if_pos hinfix]
    refine ⟨{ g with recvBuf := g.recvBuf.set b 0 }, ?_⟩
    have htext : str ((g.recvBuf.set b 0).drop (x.length + 6)) = some (cstr t) := by
      rw [List.drop_set_of_lt (closeTag_lt ht hfind), hg, drop_body, str_append_zero]
      rfl
    dsimp only
    rw [htext, Option.bind_some]
    split
    · rw [strcpy_front (by omega), Option.map_some]
    · rfl

theorem takeFrom_eq {buf : Bytes} (hd : Delimited buf x t r y q v r') (hg : g.recvBuf = x ++ bodyTag ++ t ++ 0 :: r)
    (status : Int) (pRemoteJid pMessage : Bytes) :
    ∃ g', takeFrom status g pRemoteJid pMessage =
      if (cstr v).length + 1 < pRemoteJid.length then
        (storeFrom { g with recvBuf := y ++ fromTag ++ q :: v ++ 0 :: r' } pRemoteJid (cstr v)).bind
          fun (g', pRemoteJid) => takeMessage status { g' with recvBuf := g'.recvBuf.set (y.length + 6 + v.length) 34 }
            pRemoteJid pMessage
      else some ⟨-2, g', pRemoteJid, pMessage⟩ := by
  have hzero : 0 ∈ g.recvBuf := by simp [hg]
  have hcstr : g.recvBuf.takeWhile (· ≠ 0) = cstr (x ++ bodyTag ++ t) := by
    rw [hg]
    exact cstr_ended _ r
  have hfrom : strstr fromTag g.recvBuf = some (some y.length) := by rw [strstr_eq hzero, hcstr, cstr, hd.sender]
  have hlen : (y ++ fromTag ++ [q]).length = y.length + 6 := by simp [fromTag, ascii]
  have hbuf : g.recvBuf = (y ++ fromTag ++ [q]) ++ (v ++ 34 :: r') := by
    rw [hg, hd.value]
    simp
  have hall : (y ++ fromTag ++ q :: v).length = y.length + 6 + v.length := by
    rw [← hlen, ← List.length_append]
    simp
  have hscan : scan g.recvBuf (y.length + 6) 34 = some (y.length + 6 + v.length) := by
    rw [hbuf, ← hlen]
    exact scan_append hd.noQuote r'
  have hset : g.recvBuf.set (y.length + 6 + v.length) 0 = y ++ fromTag ++ q :: v ++ 0 :: r' := by
    rw [hg, hd.value, ← hall]
    exact set_append _ 34 0 r'
  have hstr : str ((y ++ fromTag ++ q :: v ++ 0 :: r').drop (y.length + 6)) = some (cstr v) := by
    have hsplit : y ++ fromTag ++ q :: v ++ 0 :: r' = (y ++ fromTag ++ [q]) ++ (v ++ 0 :: r') := by simp
    rw [hsplit, ← hlen, List.drop_left, str_append_zero]
    rfl
  refine ⟨{ g with recvBuf := y ++ fromTag ++ q :: v ++ 0 :: r' }, ?_⟩
  unfold takeFrom
  rw [hfrom, Option.bind_some]
  dsimp only
  rw [hscan, Option.bind_some, hset, hstr, Option.bind_some]

theorem restored (hvalue : x ++ bodyTag ++ t ++ 0 :: r = y ++ fromTag ++ q :: v ++ 34 :: r') :
    (y ++ fromTag ++ q :: v ++ 0 :: r').set (y.length + 6 + v.length) 34 = x ++ bodyTag ++ t ++ 0 :: r := by
  have hall : (y ++ fromTag ++ q :: v).length = y.length + 6 + v.length := by
    simp [fromTag, ascii]
    omega
  rw [hvalue, ← hall]
  exact set_append _ 0 34 r'

theorem body_again {buf : Bytes} (hd : Delimited buf x t r y q v r') :
    findToken bodyTag (cstr (x ++ bodyTag ++ t)) = some x.length := by
  have hbody := hd.body
  obtain ⟨a, c, hsplit, hlen⟩ := findToken_split hbody
  obtain ⟨rest, hrest⟩ : a ++ bodyTag <+: buf :=
    List.IsPrefix.trans ⟨c, hsplit.symm⟩ (List.takeWhile_prefix _)
  have hax : a ++ bodyTag = x ++ bodyTag := by
    have htext := hd.text
    rw [List.append_assoc (x ++ bodyTag), ← hrest] at htext
    exact (List.append_inj htext (by rw [List.length_append, List.length_append, hlen])).1
  have h0 : 0 ∉ x ++ bodyTag := by
    rw [← hax]
    intro hmem
    refine zero_notMem_takeWhile buf ?_
    rw [hsplit]
    exact List.mem_append_left _ hmem
  have hcstr (l : Bytes) : cstr (x ++ bodyTag ++ l) = x ++ bodyTag ++ cstr l :=
    List.takeWhile_append_of_pos fun b hb => decide_eq_true fun hb0 => h0 (hb0 ▸ hb)
  have hfirst : findToken bodyTag (x ++ bodyTag) = some x.length := by
    have hall : buf.takeWhile (· ≠ 0) = x ++ bodyTag ++ cstr (t ++ 60 :: r) := by
      rw [hd.text, List.append_assoc]
      exact hcstr _
    rw [hall] at hbody
    exact findToken_of_append bodyTag_ne hbody (by rw [List.length_append])
  rw [hcstr]
  exact findToken_append hfirst _

theorem front_iff {f v rest : Bytes} (hf : 0 ∉ f) (hv : 0 ∉ v) : f ++ [0] <+: v ++ [0] ++ rest ↔ f = v := by
  constructor
  · rintro ⟨s, hs⟩
    rw [List.append_assoc, List.append_assoc, List.singleton_append, List.singleton_append] at hs
    rw [← takeWhile_append hf s, hs, takeWhile_append hv]
  · rintro rfl
    exact List.prefix_append _ rest

theorem resultRight_stored {p f t jidRest msgRest : Bytes} {g' : RecvState} (hstatus : 0 ≤ status) (hf : 0 ∉ f)
    (ht : 0 ∉ t) :
    ResultRight p pRemoteJid pMessage ⟨status, g', f ++ [0] ++ jidRest, t ++ [0] ++ msgRest⟩ ↔
      fromValue p = some f ∧ bodyText p = some t := by
  constructor
  · rintro (⟨hneg, -⟩ | ⟨-, f', t', hfrom, hbody, hf', ht', hjid, hmsg⟩)
    · exact absurd hneg (not_lt_of_ge hstatus)
    · rw [front_iff hf' hf] at hjid
      rw [front_iff ht' ht] at hmsg
      exact ⟨hjid ▸ hfrom, hmsg ▸ hbody⟩
  · rintro ⟨hfrom, hbody⟩
    exact .inr ⟨hstatus, f, t, hfrom, hbody, hf, ht, List.prefix_append _ _, List.prefix_append _ _⟩

theorem resultRight_error {p jid : Bytes} {g' : RecvState} (hstatus : status < 0) :
    ResultRight p pRemoteJid pMessage ⟨status, g', jid, pMessage⟩ ↔
      jid = pRemoteJid ∧ ¬ Fitting p pRemoteJid pMessage := by
  constructor
  · rintro (⟨-, hjid, -, hfit⟩ | ⟨hpos, -⟩)
    · exact ⟨hjid, hfit⟩
    · exact absurd hstatus (not_lt_of_ge hpos)
  · rintro ⟨hjid, hfit⟩
    exact .inl ⟨hstatus, hjid, rfl, hfit⟩

theorem exists_some_iff {α : Type} {a : α} {P : α → Prop} : (∃ b, some a = some b ∧ P b) ↔ P a := by
  constructor
  · rintro ⟨b, hb, h⟩
    exact Option.some.inj hb ▸ h
  · exact fun h => ⟨a, rfl, h⟩

theorem takeFrom_right {buf p : Bytes} (hd : Delimited buf x t r y q v r') (hg : g.Sized)
    (hbuf : g.recvBuf = x ++ bodyTag ++ t ++ 0 :: r) (hstatus : 0 ≤ status) :
    (∃ res, takeFrom status g pRemoteJid pMessage = some res ∧ ResultRight p pRemoteJid pMessage res) ↔
      Outcome p pRemoteJid pMessage x t v := by
  obtain ⟨g', hrun⟩ := takeFrom_eq hd hbuf status pRemoteJid pMessage
  rw [hrun, Outcome]
  by_cases hjid : (cstr v).length + 1 < pRemoteJid.length
  · rw [if_pos hjid, if_pos hjid]
    by_cases hlen : (cstr v).length ≤ 127
    · obtain ⟨remoteJid, rosterJid, hstore⟩ := storeFrom_eq
        (g := { g with recvBuf := y ++ fromTag ++ q :: v ++ 0 :: r' }) (zero_notMem_cstr v) hg.remoteJid
        hg.rosterJid hjid hlen
      have hmessage := takeMessage_eq
        (g := ⟨(y ++ fromTag ++ q :: v ++ 0 :: r').set (y.length + 6 + v.length) 34, remoteJid, rosterJid, 1,
          g.firstClientConnect⟩)
        hd.noBracket (body_again hd) (restored hd.value) status
        (cstr v ++ [0] ++ pRemoteJid.drop (cstr v ++ [0]).length) pMessage
      rw [hstore, Option.bind_some, and_iff_right hlen]
      dsimp only
      by_cases hclose : closeTag <:+: cstr (x ++ bodyTag ++ t)
      · rw [if_pos hclose] at hmessage
        obtain ⟨g'', hmessage⟩ := hmessage
        rw [hmessage, and_iff_right hclose]
        by_cases hmsg : (cstr t).length + 1 < pMessage.length
        · rw [if_pos hmsg, if_pos hmsg, exists_some_iff]
          exact resultRight_stored hstatus (zero_notMem_cstr v) (zero_notMem_cstr t)
        · rw [if_neg hmsg, if_neg hmsg, exists_some_iff, resultRight_error (by decide)]
          exact and_congr_left' List.prefix_iff_eq_append.symm
      · rw [if_neg hclose] at hmessage
        rw [hmessage]
        exact iff_of_false nofun fun h => hclose h.1
    · have hnone : storeFrom { g with recvBuf := y ++ fromTag ++ q :: v ++ 0 :: r' } pRemoteJid (cstr v) = none := by
        cases hstore : storeFrom { g with recvBuf := y ++ fromTag ++ q :: v ++ 0 :: r' } pRemoteJid (cstr v) with
        | none => rfl
        | some res => exact absurd (storeFrom_some hstore hg.remoteJid) hlen
      rw [hnone, Option.bind_none]
      exact iff_of_false nofun fun h => hlen h.1
  · rw [if_neg hjid, if_neg hjid, exists_some_iff, resultRight_error (by decide)]
    exact and_iff_right rfl

theorem Delimited.of_takeApart {res : Result} (hbody : bodyTag <:+: cstr g.recvBuf)
    (h : takeApart status g pRemoteJid pMessage = some res) :
    ∃ x t r y q v r', Delimited g.recvBuf x t r y q v r' := by
  obtain ⟨s, hs, h⟩ := Option.bind_eq_some_iff.1 h
  have hzero : 0 ∈ g.recvBuf := by
    by_contra hnone
    rw [str_eq_none.2 hnone] at hs
    cases hs
  obtain ⟨i, hi⟩ := Option.isSome_iff_exists.1 ((findToken_isSome bodyTag_ne).2 hbody)
  have hfind : strstr bodyTag g.recvBuf = some (some i) := by rw [strstr_eq hzero]; exact congrArg some hi
  rw [hfind, Option.bind_some] at h
  obtain ⟨j, hj, h⟩ := Option.bind_eq_some_iff.1 h
  obtain ⟨x, c, hsplit, rfl⟩ := findToken_split hi
  obtain ⟨rest, hrest⟩ : x ++ bodyTag <+: g.recvBuf :=
    List.IsPrefix.trans ⟨c, hsplit.symm⟩ (List.takeWhile_prefix _)
  have hlen : (x ++ bodyTag).length = x.length + 6 := by rw [List.length_append]; rfl
  obtain ⟨t, r, hdrop, ht, rfl⟩ := scan_some hj
  rw [← hrest, ← hlen, List.drop_left] at hdrop
  subst hdrop
  have htext : g.recvBuf = x ++ bodyTag ++ t ++ 60 :: r := by rw [← hrest, List.append_assoc _ t]
  have hset : g.recvBuf.set (x.length + 6 + t.length) 0 = x ++ bodyTag ++ t ++ 0 :: r := by
    rw [htext, ← hlen, ← List.length_append]
    exact set_append _ 60 0 r
  rw [hset] at h
  unfold takeFrom at h
  dsimp only at h
  rw [strstr_eq (by simp), Option.bind_some] at h
  cases hk : findToken fromTag ((x ++ bodyTag ++ t ++ 0 :: r).takeWhile (· ≠ 0)) with
  | none =>
    rw [hk] at h
    cases h
  | some k =>
    rw [hk] at h
    obtain ⟨m, hm, -⟩ := Option.bind_eq_some_iff.1 h
    rw [takeWhile_append_zero] at hk
    obtain ⟨y, z, hyz, rfl⟩ := findToken_split hk
    obtain ⟨s', hs'⟩ : y ++ fromTag ++ z <+: x ++ bodyTag ++ t := hyz ▸ List.takeWhile_prefix _
    obtain ⟨q, w, hqw⟩ := List.exists_cons_of_ne_nil (List.append_ne_nil_of_right_ne_nil (z ++ s') (List.cons_ne_nil 0 r))
    have hended : x ++ bodyTag ++ t ++ 0 :: r = y ++ fromTag ++ q :: w := by
      rw [← hs', ← hqw]
      simp
    have hylen : (y ++ fromTag ++ [q]).length = y.length + 6 := by simp [fromTag, ascii]
    obtain ⟨v, r', hdrop, hv, -⟩ := scan_some hm
    have hcons : y ++ fromTag ++ q :: w = (y ++ fromTag ++ [q]) ++ w := List.append_cons _ q w
    have hw : w = v ++ 34 :: r' := by rw [← hdrop, hended, ← hylen, hcons, List.drop_left]
    refine ⟨x, t, r, y, q, v, r', hi, htext, ht, hk, ?_, hv⟩
    rw [hended, hw, List.append_assoc (_ ++ _) (q :: v)]
    rfl

theorem bodyTag_of_fitting {p : Bytes} (h : Fitting p pRemoteJid pMessage) (rest : Bytes) :
    bodyTag <:+: cstr (p ++ rest) := by
  obtain ⟨h0, f, t, -, hbody, -⟩ := h
  obtain ⟨i, hi, -⟩ := Option.bind_eq_some_iff.1 hbody
  have hinfix := (findToken_isSome bodyTag_ne).1 (Option.isSome_of_eq_some hi)
  have hcstr : cstr (p ++ rest) = p ++ cstr rest :=
    List.takeWhile_append_of_pos fun b hb => decide_eq_true fun hb0 => h0 (hb0 ▸ hb)
  rw [hcstr]
  exact hinfix.trans (List.prefix_append p _).isInfix

theorem takeApart_right {p : Bytes} (hg : g.Sized) {rest : Bytes} (hbuf : g.recvBuf = p ++ rest)
    (hstatus : 0 ≤ status) :
    (∃ res, takeApart status g pRemoteJid pMessage = some res ∧ ResultRight p pRemoteJid pMessage res) ↔
      0 ∈ g.recvBuf ∧ (¬ bodyTag <:+: cstr g.recvBuf ∨
        ∃ x t r y q v r', Delimited g.recvBuf x t r y q v r' ∧ Outcome p pRemoteJid pMessage x t v) := by
  by_cases hzero : 0 ∈ g.recvBuf
  · rw [and_iff_right hzero]
    have hstr : str g.recvBuf = some (cstr g.recvBuf) := if_pos hzero
    by_cases hbody : bodyTag <:+: cstr g.recvBuf
    · rw [or_iff_right (not_not_intro hbody)]
      have hrun {x t r y q v r'} (hd : Delimited g.recvBuf x t r y q v r') :
          takeApart status g pRemoteJid pMessage =
            takeFrom status { g with recvBuf := x ++ bodyTag ++ t ++ 0 :: r } pRemoteJid pMessage := by
        have hlen : (x ++ bodyTag).length = x.length + 6 := by rw [List.length_append]; rfl
        have hfind : strstr bodyTag g.recvBuf = some (some x.length) := by
          rw [strstr_eq hzero]
          exact congrArg some hd.body
        have hscan : scan g.recvBuf (x.length + 6) 60 = some (x.length + 6 + t.length) := by
          rw [hd.text, ← hlen, List.append_assoc _ t]
          exact scan_append hd.noBracket r
        have hset : g.recvBuf.set (x.length + 6 + t.length) 0 = x ++ bodyTag ++ t ++ 0 :: r := by
          rw [hd.text, ← hlen, ← List.length_append]
          exact set_append _ 60 0 r
        rw [takeApart, hstr, Option.bind_some, hfind, Option.bind_some]
        dsimp only
        rw [hscan, Option.bind_some, hset]
      have hright {x t r y q v r'} (hd : Delimited g.recvBuf x t r y q v r') :
          (∃ res, takeApart status g pRemoteJid pMessage = some res ∧ ResultRight p pRemoteJid pMessage res) ↔
            Outcome p pRemoteJid pMessage x t v := by
        rw [hrun hd]
        refine takeFrom_right hd ⟨?_, hg.remoteJid, hg.rosterJid⟩ rfl hstatus
        rw [← hg.recvBuf, hd.text]
        simp
      constructor
      · rintro ⟨res, hres, hr⟩
        obtain ⟨x, t, r, y, q, v, r', hd⟩ := Delimited.of_takeApart hbody hres
        exact ⟨x, t, r, y, q, v, r', hd, (hright hd).1 ⟨res, hres, hr⟩⟩
      · rintro ⟨x, t, r, y, q, v, r', hd, hout⟩
        exact (hright hd).2 hout
    · refine iff_of_true ⟨⟨-1, g, pRemoteJid, pMessage⟩, ?_, ?_⟩ (.inl hbody)
      · have hfind : strstr bodyTag g.recvBuf = some none := by
          rw [strstr_eq hzero]
          exact congrArg some ((findToken_eq_none bodyTag_ne).2 hbody)
        rw [takeApart, hstr, Option.bind_some, hfind, Option.bind_some]
      · refine .inl ⟨Int.negSucc_lt_zero 0, rfl, rfl, fun hfit => hbody ?_⟩
        rw [hbuf]
        exact bodyTag_of_fitting hfit rest
  · refine iff_of_false ?_ fun h => hzero h.1
    rintro ⟨res, hres, -⟩
    rw [takeApart, str_eq_none.2 hzero, Option.bind_none] at hres
    cases hres

/-- The reception is right if and only if what it looks for is there and is the message. -/
theorem recv_right {p : Bytes} (hg : g.Sized) (hp : p.length ≤ 2048) :
    RecvRight g p pRemoteJid pMessage ↔ RecvCond g p pRemoteJid pMessage := by
  unfold RecvRight RecvCond slNetAppXmppRecv
  by_cases hnil : p = []
  · subst hnil
    rw [if_pos rfl, exists_some_iff]
    refine iff_of_false ?_ fun h => h.1 rfl
    rintro (⟨hneg, -⟩ | ⟨-, f, t, hfrom, -⟩)
    · exact absurd hneg (Int.lt_irrefl 0)
    · cases hfrom
  · rw [if_neg hnil, and_iff_right hnil, overwrite_zero]
    refine takeApart_right (g := ⟨p ++ g.recvBuf.drop p.length, g.remoteJid, List.replicate 128 0,
      g.jabberMsgSentFromPeer, 0⟩) ⟨?_, hg.remoteJid, by rw [List.length_replicate]⟩ rfl (Int.natCast_nonneg _)
    rw [List.length_append, List.length_drop, hg.recvBuf]
    omega

end Delimiters

def startState : RecvState where
  recvBuf := List.replicate 2048 0
  remoteJid := List.replicate 128 0
  rosterJid := List.replicate 128 0
  jabberMsgSentFromPeer := 0
  firstClientConnect := 0

def buffer : Bytes := List.replicate 32 0

theorem startState_behind {p : Bytes} {n : Nat} (h : p.length + (n + 1) = 2048) :
    p ++ startState.recvBuf.drop p.length = p ++ 0 :: List.replicate n 0 := by
  have hrest : 2048 - p.length = n + 1 := by omega
  show p ++ (List.replicate 2048 0).drop p.length = _
  rw [List.drop_replicate, hrest, List.replicate_succ]

/-- A message with its text as XHTML in front of the plain one. -/
theorem recv_right_xhtml :
    RecvRight startState
      (ascii "<message from=\"a@b\"><html><body xmlns='x'>hi</body></html><body>hi</body></message>") buffer buffer := by
  have hbody : bodyTag = _ := ascii_ofList rfl
  have hclose : closeTag = _ := ascii_ofList rfl
  have hfrom : fromTag = _ := ascii_ofList rfl
  have hx : ascii "<message from=\"a@b\"><html><body xmlns='x'>hi</body></html>" = _ := ascii_ofList rfl
  have hy : ascii "<message " = _ := ascii_ofList rfl
  have hr : ascii "/body></message>" = _ := ascii_ofList rfl
  have hr' : ascii "><html><body xmlns='x'>hi</body></html><body>hi" = _ := ascii_ofList rfl
  have ht : ascii "hi" = _ := ascii_ofList rfl
  have hv : ascii "a@b" = _ := ascii_ofList rfl
  rw [ascii_ofList rfl]
  refine (recv_right ⟨List.length_replicate, List.length_replicate, List.length_replicate⟩ (by decide)).2 ?_
  unfold RecvCond
  rw [startState_behind (n := 1964) (by decide)]
  refine ⟨by decide, List.mem_append_right _ List.mem_cons_self, .inr
    ⟨ascii "<message from=\"a@b\"><html><body xmlns='x'>hi</body></html>", ascii "hi",
      ascii "/body></message>" ++ 0 :: List.replicate 1964 0, ascii "<message ", 34, ascii "a@b",
      ascii "><html><body xmlns='x'>hi</body></html><body>hi" ++
        0 :: (ascii "/body></message>" ++ 0 :: List.replicate 1964 0), ?_, ?_⟩⟩
  · rw [hx, hy, hr, hr', ht, hv]
    refine ⟨?_, ?_, by decide, ?_, ?_, by decide⟩
    · rw [takeWhile_append (by decide), hbody]
      decide +kernel
    · rw [hbody]
      rfl
    · rw [hbody, hfrom]
      decide +kernel
    · rw [hbody, hfrom]
      rfl
  · unfold Outcome fromValue bodyText
    rw [hbody, hclose, hfrom, hx, ht, hv, if_pos (by decide)]
    refine ⟨by decide, by decide +kernel, ?_⟩
    rw [if_pos (by decide)]
    exact ⟨by decide +kernel, by decide +kernel⟩

/-- A plain message, with room for its parts: the "</body>" that is looked for in the end is no longer there. -/
theorem plain_message :
    Fitting (ascii "<message from=\"a@b\"><body>hi</body></message>") buffer buffer ∧
      ¬ RecvRight startState (ascii "<message from=\"a@b\"><body>hi</body></message>") buffer buffer := by
  have hbody : bodyTag = _ := ascii_ofList rfl
  have hclose : closeTag = _ := ascii_ofList rfl
  have hfrom : fromTag = _ := ascii_ofList rfl
  have hv : ascii "a@b" = _ := ascii_ofList rfl
  have ht : ascii "hi" = _ := ascii_ofList rfl
  rw [ascii_ofList rfl]
  refine ⟨⟨by decide, ascii "a@b", ascii "hi", ?_, ?_, ?_⟩, ?_⟩
  · rw [fromValue, hfrom, hv]
    decide
  · rw [bodyText, hbody, hclose, ht]
    decide
  · rw [hv, ht]
    decide
  · rintro ⟨r, hr, -⟩
    have hnone : (some r).isNone := by
      rw [← hr]
      decide +kernel
    cases hnone

end SimpleLink.NetApps.XmppRecv
