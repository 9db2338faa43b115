import SimpleLink.Server.CoreSteps

/-!
# Safety of the traversals (`server_core.c`)

The traversals share one stack of `MAX_TOP_NODES` entries. In every state that
the server reaches, and with whatever is on the stack as long as there is room
for the nodes of the tree, each of them comes back with the stack as it found it,
and has visited no node twice and all that it is responsible for: the rows below
the nodes that the topic or the filter matches level by level. The deletion of a
session goes to all nodes, deletes on its way, and leaves nothing of the client.
-/

namespace SimpleLink.Server

open Lib LinkTree

/-! ## What the traversals are responsible for -/

/-- A PUBLISH with these levels concerns the row below these nodes: each of them has the level of the
topic, or is a `+`. A level of the topic that is behind the buffer is not read. -/
def PublishGoes : List (List UInt8) → List NodeData → Prop
  | [], _ => False
  | l :: _, [] => l ≠ []
  | l :: ls, c :: as => FitsIn (maxSubtopLen - 1) l ∧ c.subtop ≠ [hash] ∧
      (c.subtop = l ∨ c.subtop = [plus, slash]) ∧ PublishGoes ls as

/-- A filter with these levels concerns the row below these nodes: none of them is a wildcard, each
has the level of the filter, or that is a `+`, and the topic up to there fits the buffer. -/
def FilterGoes : List (List UInt8) → List UInt8 → List NodeData → Prop
  | [], _, _ => False
  | l :: _, _, [] => l ≠ []
  | l :: ls, buf, c :: as => FitsIn (maxSubtopLen - 1) l ∧ hasAWildcard c = false ∧
      (c.subtop = l ∨ l = [plus, slash]) ∧ ∃ buf', topbufAdd buf c.subtop = some buf' ∧
        FilterGoes ls buf' as

/-- All that is below a filter, but not below another wildcard. -/
def AllGoes : List UInt8 → List NodeData → Prop
  | _, [] => True
  | buf, c :: as => hasAWildcard c = false ∧ ∃ buf', topbufAdd buf c.subtop = some buf' ∧ AllGoes buf' as

theorem PublishGoes.ne_nil {topic : List UInt8} {as : List NodeData}
    (h : PublishGoes (levels topic) as) : topic ≠ [] := by
  rintro rfl
  cases as with
  | nil => exact h rfl
  | cons c as => exact h.2.2.2

theorem FilterGoes.ne_nil {topic buf : List UInt8} {as : List NodeData}
    (h : FilterGoes (levels topic) buf as) : topic ≠ [] := by
  rintro rfl
  cases as with
  | nil => exact h rfl
  | cons c as =>
    obtain ⟨-, -, -, _, -, hrest⟩ := h
    exact hrest

theorem covers_publish : Covers subLeafWalker
    fun v as => ∃ topic, v.rest = some topic ∧ PublishGoes (levels topic) as where
  row := by
    rintro v as ⟨topic, hrest, hgoes⟩ i c b r hturn
    unfold subLeafWalker subLeafTurn at hturn
    dsimp only at hturn
    rw [hrest] at hturn
    dsimp only at hturn
    rw [if_neg (subtopRead_ne_nil hgoes.ne_nil)] at hturn
    split_ifs at hturn
  note := by
    rintro v as ⟨topic, hrest, hgoes⟩
    refine ⟨topic, ?_, hgoes⟩
    show some (v.rest.getD []) = some topic
    rw [hrest]
    rfl
  down := by
    rintro v c as ⟨topic, hrest, hgoes⟩ i
    have hne := hgoes.ne_nil
    rw [levels_eq] at hgoes
    obtain ⟨hfits, hhash, hmatch, hgoes⟩ := hgoes
    cases hnext : (firstLevel topic).2 with
    | none =>
      rw [hnext] at hgoes
      exact hgoes.elim
    | some topic' =>
      rw [hnext] at hgoes
      have hsub : isNodePubSubtop c (firstLevel topic).1 false = true := by
        unfold isNodePubSubtop
        rcases hmatch with heq | heq
        · rw [heq]
          simp
        · rw [heq]
          simp
      refine ⟨⟨some topic', some i, v.buf⟩, ?_, topic', rfl, hgoes⟩
      show subLeafTurn i c true v = _
      unfold subLeafTurn
      rw [hrest]
      dsimp only
      rw [if_neg (subtopRead_ne_nil hne), if_neg hhash, subtopRead_fits hfits, hnext]
      dsimp only [Option.isNone_some]
      rw [if_pos hsub]

theorem pubHierTurn_down {i : NodeIdx} {c : NodeData} {v : HierState} {topic : List UInt8}
    {as : List NodeData} (hrest : v.rest = some topic)
    (hgoes : FilterGoes (levels topic) v.buf (c :: as)) : ∃ v', pubHierTurn i c true v = .down v' ∧
      ∃ topic', v'.rest = some topic' ∧ FilterGoes (levels topic') v'.buf as := by
  have hne := hgoes.ne_nil
  rw [levels_eq] at hgoes
  obtain ⟨hfits, hwild, hmatch, buf, hbuf, hgoes⟩ := hgoes
  cases hnext : (firstLevel topic).2 with
  | none =>
    rw [hnext] at hgoes
    exact hgoes.elim
  | some topic' =>
    rw [hnext] at hgoes
    have hsub : isNodeSubSubtop c true (firstLevel topic).1 = true := by
      unfold isNodeSubSubtop
      rw [hwild]
      rcases hmatch with heq | heq
      · rw [heq]
        simp
      · rw [heq]
        simp
    refine ⟨⟨some topic', some i, buf⟩, ?_, topic', rfl, hgoes⟩
    unfold pubHierTurn
    rw [hrest]
    dsimp only
    rw [if_neg (subtopRead_ne_nil hne), subtopRead_fits hfits, if_pos hsub, hbuf, hnext]

theorem pubHierTurn_row {i : NodeIdx} {c : NodeData} {b : Bool} {v : HierState} {topic : List UInt8}
    {r : Option NodeIdx × List UInt8} (hrest : v.rest = some topic) (hne : topic ≠ []) :
    pubHierTurn i c b v ≠ .halt r := by
  intro hturn
  unfold pubHierTurn at hturn
  rw [hrest] at hturn
  dsimp only at hturn
  rw [if_neg (subtopRead_ne_nil hne)] at hturn
  split at hturn
  · split at hturn
    · cases hturn
    · cases hturn
  · cases hturn

def FilterWay (v : HierState) (as : List NodeData) : Prop :=
  ∃ topic, v.rest = some topic ∧ FilterGoes (levels topic) v.buf as

theorem FilterWay.note {v : HierState} {as : List NodeData} (h : FilterWay v as) :
    FilterWay (pubHierWalker.start (pubHierWalker.note v)) as := by
  obtain ⟨topic, hrest, hgoes⟩ := h
  refine ⟨topic, ?_, hgoes⟩
  show some (v.rest.getD []) = some topic
  rw [hrest]
  rfl

theorem covers_filter : Covers pubHierWalker FilterWay where
  row := by
    rintro v as ⟨topic, hrest, hgoes⟩ i c b r
    exact pubHierTurn_row hrest hgoes.ne_nil
  note := FilterWay.note
  down := by
    rintro v c as ⟨topic, hrest, hgoes⟩ i
    exact pubHierTurn_down hrest hgoes

theorem covers_grandpa : Covers grandpaWalker FilterWay where
  row := by
    rintro v as ⟨topic, hrest, hgoes⟩ i c b r hturn
    have hne : v.rest ≠ some [] := by
      rw [hrest]
      exact fun h => hgoes.ne_nil (Option.some.inj h)
    have hno : ∀ r, pubHierTurn i c b v ≠ .halt r := fun r => pubHierTurn_row hrest hgoes.ne_nil
    unfold grandpaWalker grandpaTurn at hturn
    dsimp only at hturn
    rw [if_neg hne] at hturn
    cases ht : pubHierTurn i c b v with
    | halt r => exact hno r ht
    | stop r =>
      rw [ht] at hturn
      cases hturn
    | down v' =>
      rw [ht] at hturn
      cases hturn
  note := FilterWay.note
  down := by
    rintro v c as ⟨topic, hrest, hgoes⟩ i
    have hne : v.rest ≠ some [] := by
      rw [hrest]
      exact fun h => hgoes.ne_nil (Option.some.inj h)
    obtain ⟨v', hturn, hway⟩ := pubHierTurn_down (i := i) hrest hgoes
    refine ⟨v', ?_, hway⟩
    show grandpaTurn i c true v = _
    unfold grandpaTurn
    rw [if_neg hne, hturn]

theorem covers_all : Covers noTopWalker fun v as => AllGoes v.buf as where
  row := by
    rintro v as - i c b r hturn
    unfold noTopWalker noTopTurn at hturn
    dsimp only at hturn
    split at hturn
    · cases hturn
    · split at hturn
      · cases hturn
      · cases hturn
  note := fun h => h
  down := by
    rintro v c as ⟨hwild, buf, hbuf, hgoes⟩ i
    refine ⟨⟨none, some i, buf⟩, ?_, hgoes⟩
    show noTopTurn i c true v = _
    unfold noTopTurn
    rw [if_neg (by rw [hwild]; decide), hbuf]

/-! ## Safety -/

/-- A traversal has visited nodes of the tree only, none of them twice, and all in a row below nodes
where `goes` holds. -/
structure VisitsOnce (t : Tree) (goes : List NodeData → Prop) (is : List NodeIdx) : Prop where
  once : is.Nodup
  inside : ∀ i ∈ is, i ∈ ids t
  all : ∀ as i, Under t as i → goes as → i ∈ is

theorem visits_once {ρ : Type} {W : Walker NodeIdx NodeData NodeNote HierState ρ} {t : Tree}
    {G : HierState → List NodeData → Prop} (hW : Covers W G) (hnd : (ids t).Nodup) (v : HierState) :
    VisitsOnce t (G v) (visits W t v) where
  once := (visits_sublist t _).nodup hnd
  inside _ hi := (visits_sublist t _).subset hi
  all _ _ hunder hgoes := mem_visits hW hunder v hgoes

theorem VisitsOnce.mono {t : Tree} {goes goes' : List NodeData → Prop} {is : List NodeIdx}
    (h : VisitsOnce t goes is) (himp : ∀ as, goes' as → goes as) : VisitsOnce t goes' is :=
  ⟨h.once, h.inside, fun as i hunder hgoes => h.all as i hunder (himp as hgoes)⟩

/-- What the traversals of a server keep, with `st` on the stack. -/
structure WalksSafe (s : ServerCore) (t : Tree) (st : NodeStack) : Prop where
  publish : ∀ topPUB msg, ∃ a is,
    procSubTreeTopPUB s.inUse topPUB msg s.tree s.cl st = some (a, is, st) ∧
      VisitsOnce t (PublishGoes (levels topPUB)) is
  subtop : ∀ row un uh, Rep s.tree.nodes un uh row → (ids row).Nodup →
    st.length + (ids row).length ≤ maxTopNodes → ∀ topSUB buf qos usr, ∃ a is,
      procPubTreeSubTop topSUB s.tree (root row) buf qos usr s.cl st = some (a, is, st) ∧
        VisitsOnce row (FilterGoes (levels topSUB) buf) is
  noTop : ∀ row un uh, Rep s.tree.nodes un uh row → (ids row).Nodup →
    st.length + (ids row).length ≤ maxTopNodes → ∀ buf qos usr, ∃ a is,
      procPubTreeNoTop s.tree (root row) buf qos usr s.cl st = some (a, is, st) ∧
        VisitsOnce row (AllGoes buf) is
  multiLevel : ∀ grandpa parent qos usr, ∃ a is,
    procSubMlWcTree grandpa parent s.tree qos usr s.cl st = some (a, is, st) ∧
      VisitsOnce t (FilterGoes (levels grandpa) []) is
  session : ∀ usr, ∃ σ m is, sessionTreeDelete usr (s.tree, s.cl) st = some ((σ, m), is, st) ∧
    is.map Prod.fst = ids t ∧ (∀ x ∈ is, InTree x) ∧
    ((s.cl.users usr).isFree = false →
      ∃ t' free', Holds σ t' free' ∧ ∀ c ∈ vals t', ∀ q, bit (c.clMap q) usr = false)

theorem CoreOk.walksSafe {s : ServerCore} {t : Tree} {free : List NodeIdx} (h : CoreOk s t free)
    {st : NodeStack} (hroom : st.length + (ids t).length ≤ maxTopNodes) : WalksSafe s t st where
  publish topPUB msg := by
    obtain ⟨a, ha, -⟩ :=
      @procSubTreeTopPUB_total s.inUse s.tree msg topPUB t free h.toHolds st hroom s.cl h.ctx
    exact ⟨a, _, ha, (visits_once covers_publish h.nodup.of_append_left _).mono
      fun as hgoes => ⟨topPUB, rfl, hgoes⟩⟩
  subtop row un uh hrep hnd hroom topSUB buf qos usr := by
    have hinit : Appends s.cl (⟨qos, s.cl⟩ : Grant).cl := Appends.refl s.cl
    obtain ⟨a, ha, -⟩ := @pubTree_total s.tree qos usr pubHierWalker row un uh st hrep hroom
      ⟨topSUB, buf⟩ s.cl h.ctx _ hinit
    exact ⟨a, _, ha, (visits_once covers_filter hnd _).mono fun as hgoes => ⟨topSUB, rfl, hgoes⟩⟩
  noTop row un uh hrep hnd hroom buf qos usr := by
    have hinit : Appends s.cl (⟨qos, s.cl⟩ : Grant).cl := Appends.refl s.cl
    obtain ⟨a, ha, -⟩ := @pubTree_total s.tree qos usr noTopWalker row un uh st hrep hroom
      ⟨[], buf⟩ s.cl h.ctx _ hinit
    exact ⟨a, _, ha, visits_once covers_all hnd (noTopWalker.start ⟨[], buf⟩)⟩
  multiLevel grandpa parent qos usr := by
    obtain ⟨a, ha, -⟩ := @procSubMlWcTree_total s.tree qos usr parent grandpa t free h.toHolds st
      hroom s.cl h.ctx
    exact ⟨a, _, ha, (visits_once covers_grandpa h.nodup.of_append_left _).mono
      fun as hgoes => ⟨grandpa, rfl, hgoes⟩⟩
  session usr := by
    obtain ⟨σ, free', is, hrun, hσ, -, hids, hin⟩ := h.toTreeOk.sessionTreeDelete usr s.cl hroom
    refine ⟨σ, _, is, hrun, hids, hin, fun hfree => ⟨_, free', hσ.toHolds, fun d hd q => ?_⟩⟩
    have hmap : clBmapGet s.cl usr = clBmap usr := by
      rw [clBmapGet, hfree]
      rfl
    obtain ⟨c, hc, rfl⟩ := mem_vals_sweep hd
    rw [hmap]
    exact unmapFirst_clear (h.oneQos c hc) usr q

end SimpleLink.Server
