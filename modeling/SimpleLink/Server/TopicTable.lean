import SimpleLink.Server.SessionTree

/-!
# The topic tree as a table (`server_core.c`)

What is at a topic: who has subscribed to it with which QoS, which plug-ins are
enrolled, and the retained message. A topic without a node, or with one that was
only made on the way to others, has nothing. Creation and pruning of nodes leave
the table as it is; the other edits change one entry of it, or lose it.
-/

namespace SimpleLink.Server

open Lib LinkTree

structure TopicEntry where
  clMap : MqttQos → BitVec 32
  pgMap : BitVec 8
  retained : Option (List UInt8 × BitVec 2)

def TopicEntry.blank : TopicEntry := ⟨fun _ => 0, pgMapAllDflts, none⟩

def NodeData.entry (c : NodeData) : TopicEntry where
  clMap := c.clMap
  pgMap := c.pgMap
  retained := if c.retain then some (c.myData.getD [], c.qid) else none

/-- The entries of a tree, by the levels of the topic. -/
def tableOf (t : Tree) (q : List (List UInt8)) : TopicEntry :=
  ((look NodeData.subtop t q).map fun p => p.2.entry).getD .blank

theorem entry_newNode (l : List UInt8) : (newNode l).entry = .blank := rfl

theorem entry_useless {c : NodeData} (h : c.useless = true) : c.entry = .blank := by
  simp only [NodeData.useless, Bool.and_eq_true, Bool.not_eq_true', beq_iff_eq] at h
  obtain ⟨⟨⟨⟨⟨hretain, -⟩, hpg⟩, h0⟩, h1⟩, h2⟩ := h
  have hmaps : c.clMap = fun _ => 0 := by
    funext q
    cases q
    · exact h0
    · exact h1
    · exact h2
  rw [NodeData.entry, hmaps, hpg, hretain]
  rfl

section Table

variable {t t' : Tree} {fs : Place} {i : NodeIdx} {c c' : NodeData} {h n : Tree}
  {q : List (List UInt8)}

theorem table_look (hl : look NodeData.subtop t q = some (i, c)) : tableOf t q = c.entry := by
  rw [tableOf, hl]
  rfl

theorem table_none (hl : look NodeData.subtop t q = none) : tableOf t q = .blank := by
  rw [tableOf, hl]
  rfl

theorem entry_filter (o : Option (NodeIdx × NodeData)) :
    ((o.filter (!NodeData.useless ·.2)).map fun p => p.2.entry).getD .blank =
      (o.map fun p => p.2.entry).getD .blank := by
  cases o with
  | none => rfl
  | some p =>
    by_cases hp : p.2.useless = true
    · rw [Option.filter_some_neg (by simp [hp]), Option.map_some, Option.getD_some,
        entry_useless hp]
      rfl
    · rw [Option.filter_some_pos (by simpa using hp)]

theorem table_congr (hlook : ∀ q, (look NodeData.subtop t q).filter (!NodeData.useless ·.2) =
    (look NodeData.subtop t' q).filter (!NodeData.useless ·.2)) : tableOf t = tableOf t' := by
  funext q
  rw [tableOf, ← entry_filter, hlook, entry_filter, tableOf]

theorem table_prune (fs : Place) (t : Tree) (free : List NodeIdx) :
    tableOf (prune NodeData.useless fs t free).1 = tableOf (plug fs t) :=
  table_congr (look_prune NodeData.useless fs t free)

theorem Created.table {s : List UInt8} (hc : Created t t' s i c) : tableOf t' = tableOf t := by
  funext q
  cases hl : look NodeData.subtop t q with
  | some p => rw [table_look (hc.old q p hl), table_look hl]
  | none =>
    rw [table_none hl]
    cases hl' : look NodeData.subtop t' q with
    | none => exact table_none hl'
    | some p =>
      rw [table_look hl']
      rcases hc.only q p hl' with hold | ⟨-, l, hp⟩
      · cases hl.symm.trans hold
      · rw [hp, entry_newNode]

theorem table_setVal (hset : ∀ q', look NodeData.subtop t' q' =
      if q' = q then some (i, c') else look NodeData.subtop t q') :
    tableOf t' = Function.update (tableOf t) q c'.entry := by
  funext q'
  unfold tableOf
  rw [hset, Function.update_apply]
  split_ifs <;> rfl

theorem table_delete (hset : ∀ c', c'.subtop = c.subtop → ∀ q',
      look NodeData.subtop (plug fs (.node i c' .nil .nil)) q' =
        if q' = q then some (i, c') else look NodeData.subtop t q') :
    tableOf (plug fs .nil) = Function.update (tableOf t) q .blank := by
  rw [← entry_newNode c.subtop, ← table_setVal (hset (newNode c.subtop) rfl)]
  refine table_congr (look_plug (R := fun a b => a.filter (!NodeData.useless ·.2) =
    b.filter (!NodeData.useless ·.2)) (fun _ => rfl) fs fun q => ?_)
  cases q with
  | nil => rfl
  | cons k q =>
    simp only [look]
    split_ifs
    · rfl
    · rfl
    · rfl

theorem table_swept (map : BitVec 32) (t : Tree) (q : List (List UInt8)) :
    tableOf (swept map t) q =
      ((look NodeData.subtop t q).map fun p => (unmapFirst map p.2).entry).getD .blank := by
  rw [tableOf, ← entry_filter, swept, look_sweep (unmapFirst_subtop map), entry_filter,
    Option.map_map]
  rfl

/-! ## Changes of the table -/

def weigh (w : TopicEntry → Nat) (t : Tree) : Nat := total (fun c => w c.entry) t

/-- The entry of one topic is another one, and nothing else changes. -/
structure Rewrites (t t' : Tree) (q : List (List UInt8)) (e : TopicEntry) : Prop where
  table : tableOf t' = Function.update (tableOf t) q e
  weight : ∀ w : TopicEntry → Nat, w .blank = 0 → weigh w t' + w (tableOf t q) = weigh w t + w e

/-- No entry changes. -/
structure SameTable (t t' : Tree) : Prop where
  table : tableOf t' = tableOf t
  weight : ∀ w : TopicEntry → Nat, w .blank = 0 → weigh w t' = weigh w t

theorem SameTable.refl (t : Tree) : SameTable t t := ⟨rfl, fun _ _ => rfl⟩

theorem SameTable.rewrites {t₁ t₂ t₃ : Tree} {e : TopicEntry} (h : SameTable t₁ t₂)
    (h' : Rewrites t₂ t₃ q e) : Rewrites t₁ t₃ q e where
  table := by rw [h'.table, h.table]
  weight w hw := by rw [← h.table, ← h.weight w hw, h'.weight w hw]

theorem Rewrites.same {t₁ t₂ t₃ : Tree} {e : TopicEntry} (h : Rewrites t₁ t₂ q e)
    (h' : SameTable t₂ t₃) : Rewrites t₁ t₃ q e where
  table := h'.table.trans h.table
  weight w hw := by rw [h'.weight w hw, h.weight w hw]

theorem Created.same {s : List UInt8} (hc : Created t t' s i c) : SameTable t t' where
  table := hc.table
  weight _ hw := hc.weight _ fun _ => hw

theorem prune_same (fs : Place) (t : Tree) (free : List NodeIdx) :
    SameTable (plug fs t) (prune NodeData.useless fs t free).1 where
  table := table_prune fs t free
  weight w hw := total_prune (fun _ hc => (congrArg w (entry_useless hc)).trans hw) fs t free

theorem setVal_rewrites (hl : look NodeData.subtop (plug fs (.node i c h n)) q = some (i, c))
    (hset : ∀ q', look NodeData.subtop (plug fs (.node i c' h n)) q' =
      if q' = q then some (i, c') else look NodeData.subtop (plug fs (.node i c h n)) q') :
    Rewrites (plug fs (.node i c h n)) (plug fs (.node i c' h n)) q c'.entry where
  table := table_setVal hset
  weight w _ := by
    simp only [weigh, table_look hl, total_plug, total_node]
    omega

theorem delete_rewrites (hl : look NodeData.subtop (plug fs (.node i c .nil .nil)) q = some (i, c))
    (hset : ∀ c', c'.subtop = c.subtop → ∀ q',
      look NodeData.subtop (plug fs (.node i c' .nil .nil)) q' =
        if q' = q then some (i, c') else look NodeData.subtop (plug fs (.node i c .nil .nil)) q') :
    Rewrites (plug fs (.node i c .nil .nil)) (plug fs .nil) q .blank where
  table := table_delete hset
  weight w hw := by
    have hnil : total (fun c => w c.entry) (.nil : Tree) = 0 := rfl
    simp only [weigh, table_look hl, total_plug, total_node, hw, hnil]
    omega

end Table

end SimpleLink.Server
