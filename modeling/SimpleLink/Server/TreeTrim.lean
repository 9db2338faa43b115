import SimpleLink.Lib.LinkWalk
import SimpleLink.Server.TreeOk

/-!
# Useless nodes (`server_core.c`)

`can_delete_node` keeps a node that has others below or after it, so that a useless
node may stay in the tree. `Trim` says that there is no other: each end of the
tree is in use. A topic that has been created may end in a useless leaf; it is
used next, or deleted.
-/

namespace SimpleLink.Server

open Lib LinkTree

def Trim (t : Tree) : Prop := Trimmed (fun _ c => c.useless = true) t

/-- None, but for `k`. -/
def TrimBut (k : NodeIdx) (t : Tree) : Prop := Trimmed (fun j c => j ≠ k ∧ c.useless = true) t

theorem Trim.but {t : Tree} (h : Trim t) (k : NodeIdx) : TrimBut k t := h.mono fun _ _ _ h => h.2

theorem Holds.unique {σ : TopicTree} {t t' : Tree} {free free' : List NodeIdx} (h : Holds σ t free)
    (h' : Holds σ t' free') : t = t' :=
  h.rep.unique h'.rep (h.root.symm.trans h'.root)

section Edits

variable {σ σ' : TopicTree} {t t' : Tree} {free free' : List NodeIdx} {q : List (List UInt8)}
  {k : NodeIdx} {c : NodeData}

theorem TrimBut.place {fs : Place} {h n : Tree} (ht : TrimBut k (plug fs (.node k c h n)))
    (hnd : (ids (plug fs (.node k c h n))).Nodup) :
    Trim h ∧ Trim n ∧ TrimmedFrames (fun _ c => c.useless = true) fs := by
  have hne : LinkTree.node k c h n ≠ .nil := nofun
  obtain ⟨⟨-, hh, hn⟩, hfs⟩ := (trimmed_plug fs hne).mp ht
  rw [(ids_plug fs _).nodup_iff, ids, List.cons_append, List.nodup_cons, List.mem_append,
    List.mem_append, not_or, not_or] at hnd
  obtain ⟨⟨hkh, hkn⟩, hkfs⟩ := hnd.1
  have hout : ∀ {l : List NodeIdx}, k ∉ l → ∀ j ∈ l, ∀ d : NodeData, d.useless = true →
      j ≠ k ∧ d.useless = true := fun hk j hj d hd => ⟨ne_of_mem_of_not_mem hj hk, hd⟩
  exact ⟨hh.mono (hout hkh), hn.mono (hout hkn), hfs.mono (hout hkfs)⟩

theorem TreeOk.create_trim (hσ : TreeOk σ t free) (ht : Trim t) {s : List UInt8}
    (hrun : topicNodeCreate σ s = some (some k, σ')) (hσ' : TreeOk σ' t' free') : TrimBut k t' := by
  cases hs : search NodeData.subtop [] t (levels s) with
  | found fs i c h n =>
    cases (topicNodeCreate_found hσ.toHolds (search_found hs).2.1).symm.trans hrun
    rw [← hσ.toHolds.unique hσ'.toHolds]
    exact ht.but k
  | missing fs ks =>
    obtain ⟨rest, -, rfl⟩ := hσ.toHolds.missing hs
    by_cases hcr : Creatable free rest
    · obtain ⟨σ₁, leaf, c, hrun₁, hσ₁, -, hlast, -⟩ := hσ.toTidy.grow hs hcr
      cases hrun₁.symm.trans hrun
      rw [← hσ₁.toHolds.unique hσ'.toHolds]
      have hne : chain (newCells free (levels rest)) ≠ .nil := by
        intro hnil
        cases hcells : newCells free (levels rest) with
        | nil =>
          rw [hcells] at hlast
          cases hlast
        | cons p l =>
          rw [hcells] at hnil
          cases hnil
      have hplug : plug fs .nil = t := (search_missing hs (levels_ne_nil s)).1
      refine (trimmed_plug fs hne).mpr ⟨trimmed_chain fun p hp => ?_, ?_⟩
      · cases hp.symm.trans hlast
        exact fun h => h.1 rfl
      · exact (Trimmed.frames (hplug.symm ▸ ht)).mono fun _ _ _ h => h.2
    · obtain ⟨σ₁, hrun₁, -⟩ := topicNodeCreate_failed hσ.toHolds hs hcr
      cases hrun₁.symm.trans hrun

theorem TreeOk.setVal_trim (hσ : TreeOk σ t free) (hl : look NodeData.subtop t q = some (k, c))
    (ht : TrimBut k t) {c' : NodeData} (hsub : c'.subtop = c.subtop) (hone : c'.OneQos)
    (huse : c'.useless = false) (hσ' : TreeOk (σ.setVal k c') t' free') : Trim t' := by
  obtain ⟨fs, h, n, rfl, -⟩ := look_place hl
  obtain ⟨hh, hn, hfs⟩ := ht.place hσ.nodup.of_append_left
  rw [← (hσ.toTidy.setVal hsub hone).toHolds.unique hσ'.toHolds]
  have hne : LinkTree.node k c' h n ≠ .nil := nofun
  refine (trimmed_plug fs hne).mpr ⟨⟨fun _ _ hc => ?_, hh, hn⟩, hfs⟩
  cases huse.symm.trans hc

theorem TreeOk.setVal_but (hσ : TreeOk σ t free) (hl : look NodeData.subtop t q = some (k, c))
    (ht : TrimBut k t) {c' : NodeData} (hsub : c'.subtop = c.subtop) (hone : c'.OneQos)
    (hσ' : TreeOk (σ.setVal k c') t' free') : TrimBut k t' := by
  obtain ⟨fs, h, n, rfl, -⟩ := look_place hl
  rw [← (hσ.toTidy.setVal hsub hone).toHolds.unique hσ'.toHolds]
  have hne : ∀ d, LinkTree.node k d h n ≠ .nil := nofun
  obtain ⟨⟨-, hh, hn⟩, hfs⟩ := (trimmed_plug fs (hne c)).mp ht
  exact (trimmed_plug fs (hne c')).mpr ⟨⟨fun _ _ hc => hc.1 rfl, hh, hn⟩, hfs⟩

theorem TreeOk.setTry_trim (hσ : TreeOk σ t free) (hl : look NodeData.subtop t q = some (k, c))
    (ht : TrimBut k t) {c' : NodeData} (hsub : c'.subtop = c.subtop) (hone : c'.OneQos)
    (hrun : Server.tryNodeDelete (σ.setVal k c') k = some σ') (hσ' : TreeOk σ' t' free') :
    Trim t' := by
  obtain ⟨fs, h, n, rfl, -⟩ := look_place hl
  obtain ⟨hh, hn, hfs⟩ := ht.place hσ.nodup.of_append_left
  obtain ⟨σ₁, hrun₁, hσ₁, -⟩ := (hσ.toTidy.setVal hsub hone).tryNodeDelete
  cases hrun₁.symm.trans hrun
  rw [← hσ₁.toHolds.unique hσ'.toHolds]
  exact trimmed_prune hfs hh hn free

theorem TreeOk.failed_trim (hσ : TreeOk σ t free) (ht : Trim t) {s : List UInt8}
    (hrun : topicNodeCreate σ s = some (none, σ')) (hσ' : TreeOk σ' t' free') : Trim t' := by
  rcases hσ.create s with ⟨leaf, c, σ₁, t₁, free₁, he, -⟩ | ⟨he, -⟩ | ⟨he, hlost, -⟩
  · cases he.symm.trans hrun
  · cases he.symm.trans hrun
    rwa [← hσ.toHolds.unique hσ'.toHolds]
  · cases he.symm.trans hrun
    rw [← hlost.toHolds.unique hσ'.toHolds]
    trivial

theorem TreeOk.created_leaf (hσ : TreeOk σ t free) (ht : Trim t) {s : List UInt8}
    (hrun : topicNodeCreate σ s = some (some k, σ')) :
    ∃ t' free', TreeOk σ' t' free' ∧ TrimBut k t' ∧ (σ'.nodes k).val.OneQos ∧
      look NodeData.subtop t' (levels s) = some (k, (σ'.nodes k).val) := by
  rcases hσ.create s with ⟨leaf, c, σ₁, t₁, free₁, he, hσ₁, -, -, hc⟩ | ⟨he, -⟩ | ⟨he, -⟩
  · cases he.symm.trans hrun
    have hl := hc.self
    rw [← hσ₁.look_val hc.self] at hl
    exact ⟨t₁, free₁, hσ₁, hσ.create_trim ht hrun hσ₁, hσ₁.look_oneQos hl, hl⟩
  · cases he.symm.trans hrun
  · cases he.symm.trans hrun

theorem swept_trim (map : BitVec 32) (t : Tree) : Trim (swept map t) := trimmed_sweep _ t

end Edits

end SimpleLink.Server
