import SimpleLink.Http.Handlers

/-!
# Answering a request (`HttpCore_HandleRequestPacket` from `Processing` on)

The loop goes on until it returns 0 or the connection is ready for the next request.
-/

namespace SimpleLink.Http.Progress

open Strings Conn Response Handlers

def respondLoop (env : Env) : Nat → Session → Option Result
  | 0, _ => none
  | fuel + 1, s =>
    if s.connectionState = .requestMethod then some (.ok (s, true))
    else
      match respond env s with
      | .error halt => some (.error halt)
      | .ok (s, false) => some (.ok (s, false))
      | .ok (s, true) => respondLoop env fuel s

def Ends (env : Env) (s s' : Session) (isOpen : Bool) : Prop :=
  ∃ fuel, respondLoop env fuel s = some (.ok (s', isOpen))

/-! ## The property and the condition -/

/-- What is read of a file, part by part, up to a read that fails. -/
def fileContent (env : Env) (fileHandle : Int) : Nat → Nat → Nat → Bytes
  | 0, _, _ => []
  | fuel + 1, totalLength, offset =>
    if totalLength = 0 then []
    else
      let uLength := if totalLength < 1000 then totalLength else 1000
      match env.fsRead fileHandle offset uLength with
      | none => []
      | some content =>
        content.toList ++ fileContent env fileHandle fuel (totalLength - uLength) (offset + uLength)

/-- The body of the answer: the file, what the function of the resource returns, or the status. -/
def responseBody (env : Env) (s : Session) : Bytes :=
  match s.handler with
  | .none => ascii "not found"
  | .httpStatic =>
    let totalLength := (env.fileLen s.cFileName).toNat
    fileContent env s.fileHandle totalLength totalLength 0
  | .httpDynamic =>
    match s.restContent[s.numResource]? with
    | some (some entry) =>
      let contentBody := cString (env.callback entry.pCbfunc)
      contentBody.take (contentBody.length % 2 ^ 16)
    | _ => []

/-- One response is sent, whole when the connection stays open and a beginning of it otherwise. -/
structure ResponseLaw (env : Env) (s s' : Session) (isOpen : Bool) : Prop where
  kept : isOpen = true → ∃ r : HttpResponse, s'.sent = s.sent ++ r.render ∧
    r.body = responseBody env s ∧ r.contentLength = some r.body.length ∧ s'.packetSend = [] ∧
    s' = httpCoreResetConnection { s' with connectionState := .requestMethod }
  closed : isOpen = false → ∃ r : HttpResponse, s'.sent <+: s.sent ++ r.render ∧
    r.body = responseBody env s ∧ r.contentLength = declared r.body.length
  files : s'.closed = if s.handler = .httpStatic then s.closed ++ [s.fileHandle] else s.closed

def AllSent (sends : List Int) (lens : List Nat) : Prop := ∃ rest, delivers sends lens = some (true, rest)

def headerLength (s : Session) (uHttpStatus : Nat) (status : Bytes) (n : Nat) : Nat :=
  (headerText s.uFlags.http11 uHttpStatus status n).length

/-- There is a buffer for each part of a file, and it is read. -/
def FileRead (env : Env) (fileHandle : Int) : Nat → Nat → Nat → Prop
  | 0, _, _ => True
  | fuel + 1, totalLength, offset =>
    totalLength = 0 ∨
      let uLength := if totalLength < 1000 then totalLength else 1000
      env.malloc uLength ∧ (env.fsRead fileHandle offset uLength).isSome ∧
        FileRead env fileHandle fuel (totalLength - uLength) (offset + uLength)

/-- The answer that a resource is not found is sent. A static file is asked for with GET, is not
empty, is read and is sent. What a dynamic resource gives is not empty, unless the connection is
closed then, and `send` does not answer `SL_EAGAIN` for ever. -/
def ResponseCond (env : Env) (s : Session) : Prop :=
  s.packetSend = [] ∧
    match s.handler with
    | .none => AllSent s.sends [headerLength s 404 (ascii "not found") 9, 9]
    | .httpStatic =>
      let n := (env.fileLen s.cFileName).toNat
      s.uFlags.methodPost = false ∧ env.malloc sizeofHttpBlob ∧ n ≠ 0 ∧
        FileRead env s.fileHandle n n 0 ∧
        AllSent s.sends (headerLength s 200 (ascii "ok") n :: packetLens n)
    | .httpDynamic =>
      ∃ entry, s.restContent[s.numResource]? = some (some entry) ∧
        let n := (cString (env.callback entry.pCbfunc)).length % 2 ^ 16
        match delivers s.sends (headerLength s 200 (ascii "ok") n :: packetLens n) with
        | none => False
        | some (true, _) => n ≠ 0 ∨ closes s
        | some (false, _) => True

/-! ## The loop -/

theorem ends_ready {env : Env} {s s' : Session} {isOpen : Bool}
    (h : s.connectionState = .requestMethod) : Ends env s s' isOpen ↔ s' = s ∧ isOpen = true := by
  constructor
  · rintro ⟨fuel, hfuel⟩
    cases fuel with
    | zero => cases hfuel
    | succ fuel =>
      unfold respondLoop at hfuel
      rw [if_pos h] at hfuel
      obtain ⟨rfl, rfl⟩ : s = s' ∧ true = isOpen := by simpa using hfuel
      exact ⟨rfl, rfl⟩
  · rintro ⟨rfl, rfl⟩
    exact ⟨1, if_pos h⟩

theorem ends_iff {env : Env} {s s' : Session} {isOpen : Bool}
    (h : s.connectionState ≠ .requestMethod) :
    Ends env s s' isOpen ↔ (respond env s = .ok (s', false) ∧ isOpen = false) ∨
      ∃ s₁, respond env s = .ok (s₁, true) ∧ Ends env s₁ s' isOpen := by
  have hloop : ∀ fuel, respondLoop env (fuel + 1) s = match respond env s with
      | .error halt => some (.error halt)
      | .ok (s, false) => some (.ok (s, false))
      | .ok (s, true) => respondLoop env fuel s := fun fuel => if_neg h
  constructor
  · rintro ⟨fuel, hfuel⟩
    cases fuel with
    | zero => cases hfuel
    | succ fuel =>
      rw [hloop] at hfuel
      split at hfuel
      · cases hfuel
      · rename_i s₁ hr
        obtain ⟨rfl, rfl⟩ : s₁ = s' ∧ false = isOpen := by simpa using hfuel
        exact .inl ⟨hr, rfl⟩
      · rename_i s₁ hr
        exact .inr ⟨s₁, hr, fuel, hfuel⟩
  · rintro (⟨hr, rfl⟩ | ⟨s₁, hr, fuel, hfuel⟩)
    · refine ⟨1, ?_⟩
      rw [hloop, hr]
    · refine ⟨fuel + 1, ?_⟩
      rw [hloop, hr]
      exact hfuel

theorem not_ends {env : Env} {s s' : Session} {isOpen : Bool} (halt : Halt)
    (h : s.connectionState ≠ .requestMethod) (hr : respond env s = .error halt) :
    ¬ Ends env s s' isOpen := by
  rw [ends_iff h, hr]
  rintro (⟨he, -⟩ | ⟨s₁, he, -⟩)
  · cases he
  · cases he

theorem ends_complete {env : Env} {s s' : Session} {isOpen : Bool}
    (h : s.connectionState = .responseComplete) :
    Ends env s s' isOpen ↔
      if closes s then s' = s ∧ isOpen = false
      else s' = httpCoreResetConnection { s with connectionState := .requestMethod } ∧
        isOpen = true := by
  rw [ends_iff (by rw [h]; decide)]
  unfold respond
  rw [h]
  dsimp only
  split
  · constructor
    · rintro (⟨he, rfl⟩ | ⟨s₁, he, -⟩)
      · obtain rfl : s = s' := by simpa using he
        exact ⟨rfl, rfl⟩
      · simp at he
    · rintro ⟨rfl, rfl⟩
      exact .inl ⟨rfl, rfl⟩
  · constructor
    · rintro (⟨he, -⟩ | ⟨s₁, he, hends⟩)
      · simp at he
      · obtain rfl : _ = s₁ := by simpa using he
        exact (ends_ready rfl).1 hends
    · rintro ⟨rfl, rfl⟩
      exact .inr ⟨_, rfl, (ends_ready rfl).2 ⟨rfl, rfl⟩⟩

theorem law_of_complete {env : Env} {s s₁ : Session} {uHttpStatus n : Nat} {status body : Bytes}
    (hstatus : httpStatusString uHttpStatus = some status)
    (hcomplete : s₁.connectionState = .responseComplete)
    (hsent : s₁.sent = s.sent ++ (headerText s.uFlags.http11 uHttpStatus status n ++ body))
    (hbody : body = responseBody env s) (hlen : n = body.length) (hpos : closes s₁ = false → 0 < n)
    (hempty : s₁.packetSend = [])
    (hfiles : s₁.closed = if s.handler = .httpStatic then s.closed ++ [s.fileHandle] else s.closed) :
    ∃ s' isOpen, Ends env s₁ s' isOpen ∧ ResponseLaw env s s' isOpen := by
  let r : HttpResponse := ⟨s.uFlags.http11, uHttpStatus, status, declared n, body, hstatus⟩
  have hrender : s₁.sent = s.sent ++ r.render := by
    rw [hsent]
    exact congrArg (s.sent ++ ·) (render_eq hstatus s.uFlags.http11 n body).symm
  have hdeclared : r.contentLength = declared r.body.length := congrArg declared hlen
  by_cases hcloses : closes s₁ = true
  · refine ⟨s₁, false, (ends_complete hcomplete).2 ?_, nofun, fun _ => ⟨r, ?_, hbody, hdeclared⟩,
      hfiles⟩
    · rw [if_pos hcloses]
      exact ⟨rfl, rfl⟩
    · exact ⟨[], (List.append_nil _).trans hrender⟩
  · refine ⟨httpCoreResetConnection { s₁ with connectionState := .requestMethod }, true,
      (ends_complete hcomplete).2 ?_, fun _ => ⟨r, hrender, hbody, ?_, hempty, rfl⟩, nofun, hfiles⟩
    · rw [if_neg hcloses]
      exact ⟨rfl, rfl⟩
    · rw [hdeclared]
      exact if_pos (hlen ▸ hpos (Bool.eq_false_iff.2 hcloses))

theorem law_of_closed {env : Env} {s s' : Session} {uHttpStatus n : Nat} {status body out : Bytes}
    (hstatus : httpStatusString uHttpStatus = some status) (hsent : s'.sent = s.sent ++ out)
    (hout : out <+: headerText s.uFlags.http11 uHttpStatus status n ++ body)
    (hbody : body = responseBody env s) (hlen : n = body.length)
    (hfiles : s'.closed = if s.handler = .httpStatic then s.closed ++ [s.fileHandle]
      else s.closed) : ResponseLaw env s s' false := by
  refine ⟨nofun, fun _ => ⟨⟨s.uFlags.http11, uHttpStatus, status, declared n, body, hstatus⟩, ?_,
    hbody, congrArg declared hlen⟩, hfiles⟩
  rw [hsent, render_eq hstatus]
  exact (List.prefix_append_right_inj _).2 hout

theorem ends_closed {env : Env} {s s' : Session} {isOpen : Bool}
    (h : s.connectionState = .responseComplete) (hends : Ends env s s' isOpen) :
    s'.closed = s.closed := by
  rw [ends_complete h] at hends
  split at hends
  · rw [hends.1]
  · rw [hends.1]
    rfl

/-! ## Nothing is found -/

theorem respond_none {env : Env} {s : Session} (hproc : s.connectionState = .processing)
    (hhandler : s.handler = .none) :
    respond env s = match httpResponseCannedError httpStatusErrorNotFound s with
      | .error halt => .error halt
      | .ok (s, _) => .ok (s, true) := by
  unfold respond httpCoreProcessNotFound
  rw [hproc, hhandler]
  dsimp only
  rcases httpResponseCannedError httpStatusErrorNotFound s with _ | ⟨_, _⟩ <;> rfl

theorem not_ends_data {env : Env} {s s' : Session} {isOpen : Bool}
    (h : s.connectionState = .responseData) : ¬ Ends env s s' isOpen := by
  refine not_ends .assertion (by rw [h]; decide) ?_
  unfold respond
  rw [h]

theorem not_ends_busy {env : Env} {s s' : Session} {isOpen : Bool}
    (hproc : s.connectionState = .processing) (hhandler : s.handler = .none)
    (hbusy : s.packetSend ≠ []) : ¬ Ends env s s' isOpen := by
  refine not_ends .assertion (by rw [hproc]; decide) ?_
  rw [respond_none hproc hhandler,
    httpResponseCannedError_error fun n => httpResponseHeaders_busy hbusy]

theorem none_law {env : Env} {s : Session} (hproc : s.connectionState = .processing)
    (hhandler : s.handler = .none) :
    (∃ s' isOpen, Ends env s s' isOpen ∧ ResponseLaw env s s' isOpen) ↔
      s.packetSend = [] ∧ AllSent s.sends [headerLength s 404 (ascii "not found") 9, 9] := by
  have hbody : ascii "not found" = responseBody env s := by
    unfold responseBody
    rw [hhandler]
  have hne : s.connectionState ≠ .requestMethod := by
    rw [hproc]
    decide
  have hlens : [(headerText s.uFlags.http11 404 (ascii "not found")
      (ascii "not found").length).length, (ascii "not found").length] =
      [headerLength s 404 (ascii "not found") 9, 9] := rfl
  have hcases := fun hempty => httpResponseCannedError_cases
    (rfl : httpStatusString 404 = some (ascii "not found")) (by decide) (by decide) (s := s) hempty
    hproc
  rw [hlens] at hcases
  constructor
  · rintro ⟨s', isOpen, hends, -⟩
    have hempty : s.packetSend = [] := by
      by_contra hbusy
      exact not_ends_busy hproc hhandler hbusy hends
    refine ⟨hempty, ?_⟩
    have hcases := hcases hempty
    rw [ends_iff hne, respond_none hproc hhandler] at hends
    rcases hd : delivers s.sends [headerLength s 404 (ascii "not found") 9, 9] with
      _ | ⟨_ | _, sends⟩
    · rw [hd] at hcases
      rw [hcases] at hends
      simp at hends
    · rw [hd] at hcases
      obtain ⟨s₁, herror, -, hhandler₁, hleft⟩ := hcases
      rw [herror] at hends
      obtain ⟨he, -⟩ | ⟨s₂, he, hends⟩ := hends
      · simp at he
      · obtain rfl : s₁ = s₂ := by simpa using he
        rcases hleft with ⟨hproc₁, hbusy⟩ | hdata
        · exact absurd hends (not_ends_busy hproc₁ (hhandler₁.trans hhandler) hbusy)
        · exact absurd hends (not_ends_data hdata)
    · exact ⟨sends, hd⟩
  · rintro ⟨hempty, sends, hd⟩
    have hcases := hcases hempty
    rw [hd] at hcases
    let s₁ : Session := { s with
      uContentLeft := 0
      sends := sends
      sent := s.sent ++ (headerText s.uFlags.http11 404 (ascii "not found") 9 ++ ascii "not found")
      connectionState := .responseComplete }
    have hsent : s₁.sent = s.sent ++
        (headerText s.uFlags.http11 404 (ascii "not found") 9 ++ ascii "not found") := rfl
    obtain ⟨s', isOpen, hends, hlaw⟩ := law_of_complete rfl rfl hsent hbody rfl
      (fun _ => by decide) hempty (by rw [hhandler]; rfl)
    refine ⟨s', isOpen, (ends_iff hne).2 (.inr ⟨_, ?_, hends⟩), hlaw⟩
    rw [respond_none hproc hhandler, hcases]
    rfl

/-! ## Dynamic resources -/

theorem httpDynamicProcessRequest_cases (env : Env) {s : Session} {entry : Resource} {n : Nat}
    (hentry : s.restContent[s.numResource]? = some (some entry))
    (hn : n = (cString (env.callback entry.pCbfunc)).length % 2 ^ 16) (hempty : s.packetSend = [])
    (hproc : s.connectionState = .processing) :
    match delivers s.sends (headerLength s 200 (ascii "ok") n :: packetLens n) with
    | none => httpDynamicProcessRequest env s = .error .again
    | some (true, sends) =>
      httpDynamicProcessRequest env s = .ok ({ s with
        uContentLeft := 0
        sends := sends
        sent := s.sent ++ (headerText s.uFlags.http11 200 (ascii "ok") n ++
          (cString (env.callback entry.pCbfunc)).take n)
        connectionState := .responseComplete }, true)
    | some (false, _) =>
      ∃ s' out, httpDynamicProcessRequest env s = .ok (s', false) ∧ s'.closed = s.closed ∧
        s'.sent = s.sent ++ out ∧ out <+: headerText s.uFlags.http11 200 (ascii "ok") n ++
          (cString (env.callback entry.pCbfunc)).take n := by
  have hheaders := httpResponseHeaders_cases (rfl : httpStatusString 200 = some (ascii "ok")) n
    hempty hproc
  have hlen : ((cString (env.callback entry.pCbfunc)).take n).length = n := by
    rw [List.length_take, hn]
    exact Nat.min_eq_left (Nat.mod_le _ _)
  rw [← List.singleton_append, delivers_append]
  unfold httpDynamicProcessRequest headerLength
  rw [hentry]
  dsimp only
  rw [← hn]
  rcases hd : delivers s.sends [(headerText s.uFlags.http11 200 (ascii "ok") n).length] with
    _ | ⟨_ | _, sends⟩
  · rw [hd] at hheaders
    rw [hheaders]
  · rw [hd] at hheaders
    obtain ⟨out, hout, hheaders⟩ := hheaders
    rw [hheaders]
    exact ⟨_, out, rfl, rfl, rfl, hout.trans (List.prefix_append _ _)⟩
  · rw [hd] at hheaders
    dsimp only at hheaders ⊢
    rw [hheaders]
    dsimp only
    by_cases hzero : n = 0
    · rw [hzero, if_neg (not_not_intro rfl)]
      have hnone : packetLens 0 = [] := rfl
      rw [hnone, delivers_nil, List.take_zero, List.append_nil]
      rfl
    · rw [if_pos hzero, if_pos (Nat.pos_of_ne_zero hzero)]
      have hcontent := httpResponseContent_cases ((cString (env.callback entry.pCbfunc)).take n)
        (s := { s with
          uContentLeft := n
          sends := sends
          sent := s.sent ++ headerText s.uFlags.http11 200 (ascii "ok") n
          connectionState := .responseData }) rfl (Nat.le_of_eq hlen)
      rw [hlen] at hcontent
      dsimp only at hcontent
      rcases hd' : delivers sends (packetLens n) with _ | ⟨_ | _, sends'⟩
      · rw [hd'] at hcontent
        exact hcontent
      · rw [hd'] at hcontent
        obtain ⟨out, hout, hcontent⟩ := hcontent
        refine ⟨_, headerText s.uFlags.http11 200 (ascii "ok") n ++ out, hcontent, rfl, ?_, ?_⟩
        · exact List.append_assoc _ _ _
        · exact (List.prefix_append_right_inj _).2 hout
      · rw [hd'] at hcontent
        dsimp only at hcontent ⊢
        rw [hcontent, Nat.sub_self, if_pos rfl, List.append_assoc]

theorem dynamic_law {env : Env} {s : Session} (hproc : s.connectionState = .processing)
    (hhandler : s.handler = .httpDynamic) :
    (∃ s' isOpen, Ends env s s' isOpen ∧ ResponseLaw env s s' isOpen) ↔
      s.packetSend = [] ∧ ∃ entry, s.restContent[s.numResource]? = some (some entry) ∧
        let n := (cString (env.callback entry.pCbfunc)).length % 2 ^ 16
        match delivers s.sends (headerLength s 200 (ascii "ok") n :: packetLens n) with
        | none => False
        | some (true, _) => n ≠ 0 ∨ closes s
        | some (false, _) => True := by
  have hne : s.connectionState ≠ .requestMethod := by
    rw [hproc]
    decide
  have hrespond : respond env s = httpDynamicProcessRequest env s := by
    unfold respond
    rw [hproc, hhandler]
  have hfiles : s.closed = if s.handler = .httpStatic then s.closed ++ [s.fileHandle]
      else s.closed := by
    rw [hhandler]
    rfl
  constructor
  · rintro ⟨s', isOpen, hends, hlaw⟩
    have hfound : ∃ entry, s.restContent[s.numResource]? = some (some entry) := by
      by_contra hnone
      refine not_ends .outOfBounds hne ?_ hends
      rw [hrespond]
      unfold httpDynamicProcessRequest
      split
      · rename_i entry hentry
        exact absurd ⟨entry, hentry⟩ hnone
      · rfl
    obtain ⟨entry, hentry⟩ := hfound
    have hempty : s.packetSend = [] := by
      by_contra hbusy
      refine not_ends .assertion hne ?_ hends
      rw [hrespond]
      unfold httpDynamicProcessRequest
      rw [hentry]
      dsimp only
      rw [httpResponseHeaders_busy hbusy]
    refine ⟨hempty, entry, hentry, ?_⟩
    have hcases := httpDynamicProcessRequest_cases env hentry rfl hempty hproc
    dsimp only
    rw [ends_iff hne, hrespond] at hends
    generalize hn : (cString (env.callback entry.pCbfunc)).length % 2 ^ 16 = n at hcases ⊢
    rcases hd : delivers s.sends (headerLength s 200 (ascii "ok") n :: packetLens n) with
      _ | ⟨_ | _, sends⟩
    · rw [hd] at hcases
      rw [hcases] at hends
      simp at hends
    · trivial
    · rw [hd] at hcases
      dsimp only at hcases ⊢
      by_contra hcond
      obtain ⟨hzero, hopen⟩ := not_or.1 hcond
      obtain rfl : n = 0 := not_not.1 hzero
      rw [hcases] at hends
      obtain ⟨he, -⟩ | ⟨s₁, he, hends⟩ := hends
      · simp at he
      · obtain ⟨rfl, -⟩ := Prod.mk.inj (Except.ok.inj he)
        have hready := (ends_complete (by rfl)).1 hends
        obtain ⟨rfl, rfl⟩ := Eq.mp (if_neg hopen) hready
        obtain ⟨r, hrender, -, hlen, -⟩ := hlaw.kept rfl
        have htext := List.append_cancel_left hrender
        have hshort : (headerText s.uFlags.http11 200 (ascii "ok") 0).length = 19 := by
          cases s.uFlags.http11 <;> rfl
        have hlong := length_render hlen
        rw [← htext, List.take_zero, List.append_nil, hshort] at hlong
        exact absurd hlong (by decide)
  · rintro ⟨hempty, entry, hentry, hcond⟩
    have hcases := httpDynamicProcessRequest_cases env hentry rfl hempty hproc
    have hlen : ((cString (env.callback entry.pCbfunc)).take
        ((cString (env.callback entry.pCbfunc)).length % 2 ^ 16)).length =
        (cString (env.callback entry.pCbfunc)).length % 2 ^ 16 := by
      rw [List.length_take]
      exact Nat.min_eq_left (Nat.mod_le _ _)
    have hbody : (cString (env.callback entry.pCbfunc)).take
        ((cString (env.callback entry.pCbfunc)).length % 2 ^ 16) = responseBody env s := by
      unfold responseBody
      rw [hhandler]
      dsimp only
      rw [hentry]
    dsimp only at hcond
    generalize (cString (env.callback entry.pCbfunc)).length % 2 ^ 16 = n at hcases hcond hlen hbody
    rcases hd : delivers s.sends (headerLength s 200 (ascii "ok") n :: packetLens n) with
      _ | ⟨_ | _, sends⟩
    · rw [hd] at hcond
      exact hcond.elim
    · rw [hd] at hcases
      obtain ⟨s', out, hprocess, hclosed, hsent, hout⟩ := hcases
      exact ⟨s', false, (ends_iff hne).2 (.inl ⟨hrespond.trans hprocess, rfl⟩),
        law_of_closed rfl hsent hout hbody hlen.symm (hclosed.trans hfiles)⟩
    · rw [hd] at hcases hcond
      dsimp only at hcases hcond
      have hpos : closes s = false → 0 < n := by
        intro hopen
        rcases hcond with hpos | hcloses
        · exact Nat.pos_of_ne_zero hpos
        · exact absurd (hopen.symm.trans hcloses) (by decide)
      let s₁ : Session := { s with
        uContentLeft := 0
        sends := sends
        sent := s.sent ++ (headerText s.uFlags.http11 200 (ascii "ok") n ++
          (cString (env.callback entry.pCbfunc)).take n)
        connectionState := .responseComplete }
      have hsent : s₁.sent = s.sent ++ (headerText s.uFlags.http11 200 (ascii "ok") n ++
          (cString (env.callback entry.pCbfunc)).take n) := rfl
      obtain ⟨s', isOpen, hends, hlaw⟩ := law_of_complete rfl rfl hsent hbody hlen.symm hpos
        hempty hfiles
      exact ⟨s', isOpen, (ends_iff hne).2 (.inr ⟨_, hrespond.trans hcases, hends⟩), hlaw⟩

/-! ## Static files -/

/-- A response has been sent, and nothing else has changed that is looked at from there on. -/
structure Answered (s s' : Session) (out : Bytes) : Prop where
  state : s'.connectionState = .responseComplete
  sent : s'.sent = s.sent ++ out
  closed : s'.closed = s.closed
  uFlags : s'.uFlags = s.uFlags
  packetSend : s'.packetSend = s.packetSend
  fileHandle : s'.fileHandle = s.fileHandle

def Aborts (s : Session) (r : Except Halt (Session × Option Bool)) : Prop :=
  (∃ halt, r = .error halt) ∨ ∃ s', r = .ok (s', some false) ∧ s'.closed = s.closed

theorem uLength_eq (totalLength : Nat) :
    (if totalLength < 1000 then totalLength else 1000) = min 1000 totalLength := by
  split <;> omega

theorem fileRead_succ {env : Env} {fileHandle : Int} {fuel totalLength offset : Nat}
    (h : totalLength ≠ 0) :
    FileRead env fileHandle (fuel + 1) totalLength offset ↔
      env.malloc (min 1000 totalLength) = true ∧
        (env.fsRead fileHandle offset (min 1000 totalLength)).isSome = true ∧
          FileRead env fileHandle fuel (totalLength - min 1000 totalLength)
            (offset + min 1000 totalLength) := by
  rw [FileRead]
  dsimp only
  rw [uLength_eq]
  exact or_iff_right h

theorem readLoop_cases (env : Env) {fuel totalLength : Nat} (offset : Nat) {s : Session}
    (hfuel : totalLength ≤ fuel) (hleft : s.uContentLeft = totalLength)
    (hstate : s.connectionState = if totalLength = 0 then .responseComplete else .responseData) :
    (FileRead env s.fileHandle fuel totalLength offset ∧
      AllSent s.sends (packetLoop fuel totalLength) ∧
        ∃ s', readLoop env fuel totalLength offset true s = .ok (s', none) ∧
          Answered s s' (fileContent env s.fileHandle fuel totalLength offset) ∧
          (fileContent env s.fileHandle fuel totalLength offset).length = totalLength) ∨
    (¬ (FileRead env s.fileHandle fuel totalLength offset ∧
      AllSent s.sends (packetLoop fuel totalLength)) ∧
        Aborts s (readLoop env fuel totalLength offset true s)) := by
  induction fuel generalizing totalLength offset s with
  | zero =>
    obtain rfl : totalLength = 0 := Nat.le_zero.1 hfuel
    exact .inl ⟨trivial, ⟨s.sends, delivers_nil _⟩, s, rfl,
      ⟨hstate, (List.append_nil _).symm, rfl, rfl, rfl, rfl⟩, rfl⟩
  | succ fuel ih =>
    unfold readLoop packetLoop fileContent
    by_cases hzero : totalLength = 0
    · rw [if_pos hzero, if_pos hzero, if_pos hzero]
      rw [if_pos hzero] at hstate
      exact .inl ⟨.inl hzero, ⟨s.sends, delivers_nil _⟩, s, rfl,
        ⟨hstate, (List.append_nil _).symm, rfl, rfl, rfl, rfl⟩, hzero.symm⟩
    · rw [if_neg hzero, if_neg hzero, if_neg hzero, fileRead_succ hzero, ← List.singleton_append]
      rw [if_neg hzero] at hstate
      dsimp only
      rw [uLength_eq]
      by_cases hmalloc : env.malloc (min 1000 totalLength) = true
      · rw [if_neg (not_not_intro hmalloc)]
        cases hread : env.fsRead s.fileHandle offset (min 1000 totalLength) with
        | none =>
          refine .inr ⟨fun h => Bool.false_ne_true h.1.2.1, .inl ⟨.assertion, ?_⟩⟩
          dsimp only
          rw [httpResponseCannedError_error fun n => httpResponseHeaders_data hstate]
        | some content =>
          have hlen : content.toList.length = min 1000 totalLength := Vector.length_toList
          have hpos : 0 < min 1000 totalLength := Nat.lt_min.2 ⟨by decide, Nat.pos_of_ne_zero hzero⟩
          have hcontent := httpResponseContent_cases content.toList hstate (by
            rw [hlen, hleft]
            exact Nat.min_le_right _ _)
          rw [hlen, packetLens_short hpos (Nat.min_le_left _ _), hleft] at hcontent
          rw [if_pos rfl]
          dsimp only
          rcases hd : delivers s.sends [min 1000 totalLength] with _ | ⟨_ | _, sends⟩
          · rw [hd] at hcontent
            rw [hcontent]
            refine .inr ⟨?_, .inl ⟨.again, rfl⟩⟩
            rintro ⟨-, rest, hall⟩
            rw [delivers_append, hd] at hall
            cases hall
          · rw [hd] at hcontent
            obtain ⟨out, -, hcontent⟩ := hcontent
            rw [hcontent]
            refine .inr ⟨?_, .inr ⟨_, rfl, rfl⟩⟩
            rintro ⟨-, rest, hall⟩
            rw [delivers_append, hd] at hall
            cases hall
          · rw [hd] at hcontent
            dsimp only at hcontent
            rw [hcontent]
            dsimp only
            let s₁ : Session := { s with
              uContentLeft := totalLength - min 1000 totalLength
              sends := sends
              sent := s.sent ++ content.toList
              connectionState := if totalLength - min 1000 totalLength = 0 then .responseComplete
                else .responseData }
            have hsends : AllSent s.sends ([min 1000 totalLength] ++
                packetLoop fuel (totalLength - 1000)) ↔
                AllSent s₁.sends (packetLoop fuel (totalLength - min 1000 totalLength)) := by
              have hsub : totalLength - min 1000 totalLength = totalLength - 1000 := by omega
              unfold AllSent
              rw [delivers_append, hd, hsub]
            have hrest := @ih (totalLength - min 1000 totalLength) (offset + min 1000 totalLength) s₁
              (by omega) rfl rfl
            rw [hsends]
            rcases hrest with ⟨hfile, hall, s', hloop, hanswered, hbody⟩ | ⟨hnot, haborts⟩
            · refine .inl ⟨⟨hmalloc, rfl, hfile⟩, hall, s', hloop,
                ⟨hanswered.state, ?_, hanswered.closed, hanswered.uFlags, hanswered.packetSend,
                  hanswered.fileHandle⟩, ?_⟩
              · rw [hanswered.sent]
                exact List.append_assoc _ _ _
              · rw [List.length_append, hlen, hbody]
                omega
            · exact .inr ⟨fun h => hnot ⟨h.1.2.2, h.2⟩, haborts⟩
      · rw [if_pos hmalloc]
        exact .inr ⟨fun h => hmalloc h.1.1, .inr ⟨s, rfl, rfl⟩⟩

theorem cannedError_aborts {uHttpStatus : Nat} {status : Bytes} {s : Session}
    (hstatus : httpStatusString uHttpStatus = some status) (hpos : 0 < status.length)
    (hshort : status.length ≤ httpCoreMaxPacketSizeSend) (hproc : s.connectionState = .processing) :
    (∃ halt, httpResponseCannedError uHttpStatus s = .error halt) ∨
      ∃ s' rc, httpResponseCannedError uHttpStatus s = .ok (s', rc) ∧ s'.closed = s.closed ∧
        (rc = true → s'.connectionState = .responseComplete) := by
  by_cases hempty : s.packetSend = []
  · have hcases := httpResponseCannedError_cases hstatus hpos hshort hempty hproc
    rcases hd : delivers s.sends [(headerText s.uFlags.http11 uHttpStatus status
        status.length).length, status.length] with _ | ⟨_ | _, sends⟩
    · rw [hd] at hcases
      exact .inl ⟨_, hcases⟩
    · rw [hd] at hcases
      obtain ⟨s', hcanned, hclosed, -⟩ := hcases
      exact .inr ⟨s', false, hcanned, hclosed, nofun⟩
    · rw [hd] at hcases
      exact .inr ⟨_, true, hcases, rfl, fun _ => rfl⟩
  · exact .inl ⟨_, httpResponseCannedError_error fun n => httpResponseHeaders_busy hempty⟩

theorem readLoop_headers {env : Env} {totalLength : Nat} {s : Session} (fuel : Nat)
    (hzero : totalLength ≠ 0) (hmalloc : env.malloc (min 1000 totalLength) = true)
    (hread : (env.fsRead s.fileHandle 0 (min 1000 totalLength)).isSome = true) :
    (∀ halt, httpResponseHeaders httpStatusOk false totalLength [] [] s = .error halt →
      readLoop env (fuel + 1) totalLength 0 false s = .error halt) ∧
    (∀ s₁, httpResponseHeaders httpStatusOk false totalLength [] [] s = .ok (s₁, false) →
      readLoop env (fuel + 1) totalLength 0 false s = .ok (s₁, some false)) ∧
    ∀ s₁, httpResponseHeaders httpStatusOk false totalLength [] [] s = .ok (s₁, true) →
      s₁.fileHandle = s.fileHandle → readLoop env (fuel + 1) totalLength 0 false s =
        readLoop env (fuel + 1) totalLength 0 true s₁ := by
  obtain ⟨content, hcontent⟩ := Option.isSome_iff_exists.1 hread
  refine ⟨fun halt h => ?_, fun s₁ h => ?_, fun s₁ h hhandle => ?_⟩
  · rw [readLoop, if_neg hzero]
    dsimp only
    rw [uLength_eq, if_neg (not_not_intro hmalloc), hcontent]
    dsimp only
    rw [if_neg Bool.false_ne_true, h]
  · rw [readLoop, if_neg hzero]
    dsimp only
    rw [uLength_eq, if_neg (not_not_intro hmalloc), hcontent]
    dsimp only
    rw [if_neg Bool.false_ne_true, h]
  · rw [readLoop, readLoop, if_neg hzero, if_neg hzero]
    dsimp only
    rw [uLength_eq, if_neg (not_not_intro hmalloc), if_neg (not_not_intro hmalloc), hhandle, hcontent]
    dsimp only
    rw [if_neg Bool.false_ne_true, if_pos rfl, h]

theorem FileRead.first {env : Env} {fileHandle : Int} {totalLength : Nat}
    (h : FileRead env fileHandle totalLength totalLength 0) (hzero : totalLength ≠ 0) :
    env.malloc (min 1000 totalLength) = true ∧
      (env.fsRead fileHandle 0 (min 1000 totalLength)).isSome = true := by
  obtain ⟨fuel, rfl⟩ := Nat.exists_eq_succ_of_ne_zero hzero
  have hfirst := (fileRead_succ hzero).1 h
  exact ⟨hfirst.1, hfirst.2.1⟩

/-- The first read of a file fails. -/
theorem readLoop_unread {env : Env} {totalLength : Nat} {s : Session} (hzero : totalLength ≠ 0)
    (hmalloc : env.malloc (min 1000 totalLength) = true)
    (hread : env.fsRead s.fileHandle 0 (min 1000 totalLength) = none) :
    readLoop env totalLength totalLength 0 false s =
      match httpResponseCannedError httpStatusErrorNotAccepted s with
      | .error halt => .error halt
      | .ok (s, rc) => .ok (s, some rc) := by
  obtain ⟨fuel, hfuel⟩ : ∃ fuel, totalLength = fuel + 1 := Nat.exists_eq_succ_of_ne_zero hzero
  rw [hfuel, readLoop, ← hfuel, if_neg hzero]
  dsimp only
  rw [uLength_eq, if_neg (not_not_intro hmalloc)]
  cases httpResponseCannedError httpStatusErrorNotAccepted s with
  | error halt => simp only [hread]
  | ok r =>
    obtain ⟨s', rc⟩ := r
    simp only [hread]

theorem readLoop_start {env : Env} {totalLength : Nat} {s : Session} (hzero : totalLength ≠ 0)
    (hproc : s.connectionState = .processing) (hread : env.malloc (min 1000 totalLength) = true →
      (env.fsRead s.fileHandle 0 (min 1000 totalLength)).isSome = true) :
    (s.packetSend = [] ∧ FileRead env s.fileHandle totalLength totalLength 0 ∧
      AllSent s.sends (headerLength s 200 (ascii "ok") totalLength :: packetLens totalLength) ∧
        ∃ s', readLoop env totalLength totalLength 0 false s = .ok (s', none) ∧
          Answered s s' (headerText s.uFlags.http11 200 (ascii "ok") totalLength ++
            fileContent env s.fileHandle totalLength totalLength 0) ∧
          (fileContent env s.fileHandle totalLength totalLength 0).length = totalLength) ∨
    (¬ (s.packetSend = [] ∧ FileRead env s.fileHandle totalLength totalLength 0 ∧
      AllSent s.sends (headerLength s 200 (ascii "ok") totalLength :: packetLens totalLength)) ∧
        Aborts s (readLoop env totalLength totalLength 0 false s)) := by
  obtain ⟨fuel, hfuel⟩ : ∃ fuel, totalLength = fuel + 1 := Nat.exists_eq_succ_of_ne_zero hzero
  by_cases hmalloc : env.malloc (min 1000 totalLength) = true
  · have hheaders := readLoop_headers fuel hzero hmalloc (hread hmalloc)
    rw [← hfuel] at hheaders
    obtain ⟨herror, hfalse, htrue⟩ := hheaders
    by_cases hempty : s.packetSend = []
    · have hheaders := httpResponseHeaders_cases (rfl : httpStatusString 200 = some (ascii "ok"))
        totalLength hempty hproc
      rw [← List.singleton_append]
      rcases hd : delivers s.sends [headerLength s 200 (ascii "ok") totalLength] with
        _ | ⟨_ | _, sends⟩
      · rw [headerLength] at hd
        rw [hd] at hheaders
        refine .inr ⟨?_, .inl ⟨.again, herror _ hheaders⟩⟩
        rintro ⟨-, -, rest, hall⟩
        rw [delivers_append, headerLength, hd] at hall
        cases hall
      · rw [headerLength] at hd
        rw [hd] at hheaders
        obtain ⟨out, -, hheaders⟩ := hheaders
        refine .inr ⟨?_, .inr ⟨_, hfalse _ hheaders, rfl⟩⟩
        rintro ⟨-, -, rest, hall⟩
        rw [delivers_append, headerLength, hd] at hall
        cases hall
      · have hd' := hd
        rw [headerLength] at hd'
        rw [hd'] at hheaders
        dsimp only at hheaders
        rw [if_pos (Nat.pos_of_ne_zero hzero)] at hheaders
        let s₁ : Session := { s with
          uContentLeft := totalLength
          sends := sends
          sent := s.sent ++ headerText s.uFlags.http11 200 (ascii "ok") totalLength
          connectionState := .responseData }
        have hsends : AllSent s.sends ([headerLength s 200 (ascii "ok") totalLength] ++
            packetLens totalLength) ↔ AllSent s₁.sends (packetLens totalLength) := by
          unfold AllSent
          rw [delivers_append, hd]
        have hsame := htrue s₁ hheaders rfl
        have hcases := readLoop_cases env 0 (s := s₁) (Nat.le_refl totalLength) rfl (if_neg hzero).symm
        rw [hsame, hsends]
        rcases hcases with ⟨hfile, hall, s', hloop', hanswered, hbody⟩ | ⟨hno, haborts⟩
        · refine .inl ⟨hempty, hfile, hall, s', hloop', ⟨hanswered.state, ?_,
            hanswered.closed, hanswered.uFlags, hanswered.packetSend, hanswered.fileHandle⟩,
            hbody⟩
          rw [hanswered.sent]
          exact List.append_assoc _ _ _
        · exact .inr ⟨fun h => hno h.2, haborts⟩
    · exact .inr ⟨fun h => hempty h.1, .inl ⟨_, herror _ (httpResponseHeaders_busy hempty)⟩⟩
  · refine .inr ⟨fun h => hmalloc (h.2.1.first hzero).1, .inr ⟨s, ?_, rfl⟩⟩
    rw [hfuel, readLoop, ← hfuel, if_neg hzero]
    dsimp only
    rw [uLength_eq, if_pos hmalloc]

theorem not_ends_empty {env : Env} {s s' : Session} {isOpen : Bool}
    (hproc : s.connectionState = .processing) (hhandler : s.handler = .httpStatic)
    (hmalloc : env.malloc sizeofHttpBlob = true) (hpost : s.uFlags.methodPost = false)
    (hzero : (env.fileLen s.cFileName).toNat = 0) : ¬ Ends env s s' isOpen := by
  rintro ⟨fuel, hfuel⟩
  induction fuel generalizing s with
  | zero => cases hfuel
  | succ fuel ih =>
    have hrespond : respond env s =
        .ok ({ s with closed := s.closed ++ [s.fileHandle] }, true) := by
      unfold respond httpStaticProcessRequest
      rw [hproc, hhandler]
      dsimp only
      rw [if_neg (not_not_intro hmalloc), hpost, if_neg Bool.false_ne_true, hzero]
      rfl
    unfold respondLoop at hfuel
    rw [if_neg (by rw [hproc]; decide), hrespond] at hfuel
    exact ih (s := { s with closed := s.closed ++ [s.fileHandle] }) hproc hhandler hpost hzero hfuel

theorem ends_aborts {env : Env} {s s' : Session} {isOpen : Bool}
    (hne : s.connectionState ≠ .requestMethod)
    (h : (∃ halt, respond env s = .error halt) ∨ ∃ s' rc, respond env s = .ok (s', rc) ∧
      s'.closed = s.closed ∧ (rc = true → s'.connectionState = .responseComplete))
    (hends : Ends env s s' isOpen) : s'.closed = s.closed := by
  rcases h with ⟨halt, hr⟩ | ⟨s₁, rc, hr, hclosed, hstate⟩
  · exact absurd hends (not_ends halt hne hr)
  · rw [ends_iff hne, hr] at hends
    obtain ⟨he, -⟩ | ⟨s₂, he, hends⟩ := hends
    · obtain ⟨rfl, -⟩ := Prod.mk.inj (Except.ok.inj he)
      exact hclosed
    · obtain ⟨rfl, rfl⟩ := Prod.mk.inj (Except.ok.inj he)
      exact (ends_closed (hstate rfl) hends).trans hclosed

theorem static_law {env : Env} {s : Session} (hproc : s.connectionState = .processing)
    (hhandler : s.handler = .httpStatic) :
    (∃ s' isOpen, Ends env s s' isOpen ∧ ResponseLaw env s s' isOpen) ↔
      s.packetSend = [] ∧
        let n := (env.fileLen s.cFileName).toNat
        s.uFlags.methodPost = false ∧ env.malloc sizeofHttpBlob ∧ n ≠ 0 ∧
          FileRead env s.fileHandle n n 0 ∧
          AllSent s.sends (headerLength s 200 (ascii "ok") n :: packetLens n) := by
  have hne : s.connectionState ≠ .requestMethod := by
    rw [hproc]
    decide
  have hrespond : respond env s = httpStaticProcessRequest env s := by
    unfold respond
    rw [hproc, hhandler]
  dsimp only
  generalize hn : (env.fileLen s.cFileName).toNat = n
  constructor
  · rintro ⟨s', isOpen, hends, hlaw⟩
    have hnot : s'.closed ≠ s.closed := by
      rw [hlaw.files, if_pos hhandler]
      exact fun h => absurd (congrArg List.length h) (by simp)
    have hmalloc : env.malloc sizeofHttpBlob = true := by
      by_contra hno
      refine hnot (ends_aborts hne (.inr ⟨s, false, ?_, rfl, nofun⟩) hends)
      rw [hrespond]
      exact if_pos hno
    have hpost : s.uFlags.methodPost = false := by
      by_contra hpost
      refine hnot (ends_aborts hne ?_ hends)
      have hcanned := cannedError_aborts (rfl : httpStatusString 500 = some _) (by decide) (by decide)
        hproc
      rw [hrespond]
      unfold httpStaticProcessRequest
      rw [if_neg (not_not_intro hmalloc), if_pos (Bool.not_eq_false _ ▸ hpost)]
      exact hcanned
    have hzero : n ≠ 0 := by
      rintro rfl
      exact not_ends_empty hproc hhandler hmalloc hpost hn hends
    have hfirst : env.malloc (min 1000 n) = true →
        (env.fsRead s.fileHandle 0 (min 1000 n)).isSome = true := by
      intro hroom
      by_contra hunread
      have hread := Option.not_isSome_iff_eq_none.1 hunread
      refine hnot (ends_aborts hne ?_ hends)
      have hcanned := cannedError_aborts (rfl : httpStatusString 406 = some _) (by decide) (by decide)
        hproc
      rw [hrespond]
      unfold httpStaticProcessRequest
      rw [if_neg (not_not_intro hmalloc), hpost, if_neg Bool.false_ne_true, hn]
      dsimp only
      rw [readLoop_unread hzero hroom hread]
      rcases hcanned with ⟨halt, hcanned⟩ | ⟨s₁, rc, hcanned, hleft⟩
      · rw [hcanned]
        exact .inl ⟨halt, rfl⟩
      · rw [hcanned]
        exact .inr ⟨s₁, rc, rfl, hleft⟩
    rcases readLoop_start hzero hproc hfirst with ⟨hempty, hfile, hall, -⟩ | ⟨-, haborts⟩
    · exact ⟨hempty, hpost, hmalloc, hzero, hfile, hall⟩
    · refine absurd (ends_aborts hne ?_ hends) hnot
      rw [hrespond]
      unfold httpStaticProcessRequest
      rw [if_neg (not_not_intro hmalloc), hpost, if_neg Bool.false_ne_true, hn]
      dsimp only
      rcases haborts with ⟨halt, hloop⟩ | ⟨s₁, hloop, hclosed⟩
      · rw [hloop]
        exact .inl ⟨halt, rfl⟩
      · rw [hloop]
        exact .inr ⟨s₁, false, rfl, hclosed, fun h => absurd h Bool.false_ne_true⟩
  · rintro ⟨hempty, hpost, hmalloc, hzero, hfile, hall⟩
    rcases readLoop_start hzero hproc (fun _ => (hfile.first hzero).2) with
      ⟨-, -, -, s₁, hloop, hanswered, hlen⟩ | ⟨hno, -⟩
    · have hprocess : respond env s =
          .ok ({ s₁ with closed := s₁.closed ++ [s₁.fileHandle] }, true) := by
        rw [hrespond]
        unfold httpStaticProcessRequest
        rw [if_neg (not_not_intro hmalloc), hpost, if_neg Bool.false_ne_true, hn]
        dsimp only
        rw [hloop]
      let s₂ : Session := { s₁ with closed := s₁.closed ++ [s₁.fileHandle] }
      have hsent : s₂.sent = s.sent ++ (headerText s.uFlags.http11 200 (ascii "ok") n ++
          fileContent env s.fileHandle n n 0) := hanswered.sent
      have hbody : fileContent env s.fileHandle n n 0 = responseBody env s := by
        unfold responseBody
        rw [hhandler]
        dsimp only
        rw [hn]
      have hclosed : s₂.closed =
          if s.handler = .httpStatic then s.closed ++ [s.fileHandle] else s.closed := by
        rw [if_pos hhandler, ← hanswered.closed, ← hanswered.fileHandle]
      have hcomplete : s₂.connectionState = .responseComplete := hanswered.state
      obtain ⟨s', isOpen, hends, hlaw⟩ := law_of_complete rfl hcomplete hsent hbody hlen.symm
        (fun _ => Nat.pos_of_ne_zero hzero) (hanswered.packetSend.trans hempty) hclosed
      exact ⟨s', isOpen, (ends_iff hne).2 (.inr ⟨_, hprocess, hends⟩), hlaw⟩
    · exact absurd ⟨hempty, hfile, hall⟩ hno

/-! ## The results -/

/-- A request is answered as one response, with the length of its content, and its file is closed,
just when nothing fails in the way and there is something to send. -/
theorem http_response (env : Env) (s : Session) (hproc : s.connectionState = .processing) :
    (∃ s' isOpen, Ends env s s' isOpen ∧ ResponseLaw env s s' isOpen) ↔ ResponseCond env s := by
  unfold ResponseCond
  cases hhandler : s.handler with
  | none => exact none_law hproc hhandler
  | httpStatic => exact static_law hproc hhandler
  | httpDynamic => exact dynamic_law hproc hhandler

/-- A file of three bytes, on a connection that stays open. -/
def threeBytes : Env where
  fsOpen _ _ := 5
  fileLen _ := 3
  fsRead _ _ len := some (Vector.replicate len 65)
  malloc _ := true
  callback _ := []
  handshakeHash key := key
  socketCloses := true

/-- A request for a file, when `send` first answers that it has to be tried again. -/
def getFile : Session where
  connectionState := .processing
  uFlags := { Flags.zero with http11 := true }
  requestContent := 0
  handler := .httpStatic
  headerStart := []
  uContentLeft := 0
  uSavedBufferSize := 0
  sent := []
  handled := []
  packetSend := []
  cFileName := ascii "www/a"
  fileHandle := 5
  numResource := 0
  restContent := []
  wsKey := []
  wsOriginName := none
  origin := false
  webSock := ⟨[], 0, 0, false, [], false, false, 0⟩
  sends := [slEagain, 38, 3]
  opens := 1
  closed := []

theorem http_response_three :
    ∃ s' isOpen, Ends threeBytes getFile s' isOpen ∧ ResponseLaw threeBytes getFile s' isOpen := by
  refine (http_response threeBytes getFile rfl).2 ⟨rfl, rfl, rfl, by decide, ?_, ?_⟩
  · exact .inr ⟨rfl, rfl, .inl rfl⟩
  · exact ⟨[], by decide⟩

/-- An empty file. -/
theorem empty_file_loops :
    ¬ ∃ s' isOpen, Ends { threeBytes with fileLen := fun _ => 0 } getFile s' isOpen ∧
      ResponseLaw { threeBytes with fileLen := fun _ => 0 } getFile s' isOpen := by
  rintro ⟨s', isOpen, hends, -⟩
  exact not_ends_empty rfl rfl rfl rfl rfl hends

end SimpleLink.Http.Progress
