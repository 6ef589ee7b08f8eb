/-
# `ArchiveMount.Proofs.Tree.Files` — trees of files that keep apart

When all records are accepted files and none stands where another one or an ancestor of it
stands, no record gives way to another: the files of the tree are the records, one by one.
-/
import ArchiveMount.Proofs.Tree.Content

namespace ArchiveMount

/-- Records of files only, at paths that are apart. -/
structure Flat (records : List EntryRecord) : Prop where
  accepted : ∀ r ∈ records, r.Accepted
  files : ∀ r ∈ records, r.isDir = false
  apart : (records.map fun r => TreePath.ofText r.name).Pairwise TreePath.Apart

namespace Flat

variable {records : List EntryRecord} {r s : EntryRecord}

theorem inj (h : Flat records) (hr : r ∈ records) (hs : s ∈ records)
    (hpath : TreePath.ofText r.name = TreePath.ofText s.name) : r = s :=
  List.inj_on_of_nodup_map (TreePath.nodup_of_apart h.apart) hr hs hpath

theorem lastAt_eq_some (h : Flat records) (hr : r ∈ records) :
    lastAt records (TreePath.ofText r.name) = some r := by
  simp only [lastAt]
  cases hl : (records.filter fun s =>
      s.Accepted ∧ TreePath.ofText s.name = TreePath.ofText r.name).getLast? with
  | none =>
      have hnil := List.getLast?_eq_none_iff.1 hl
      have hmem := List.filter_eq_nil_iff.1 hnil r hr
      exact absurd (by simpa using h.accepted r hr) hmem
  | some s =>
      obtain ⟨hs, hp⟩ := List.mem_filter.1 (List.mem_of_getLast? hl)
      have hp : s.Accepted ∧ TreePath.ofText s.name = TreePath.ofText r.name := by simpa using hp
      rw [h.inj hs hr hp.2]

theorem not_hasBelow (h : Flat records) (hr : r ∈ records) :
    ¬ HasBelow records (TreePath.ofText r.name) := by
  rintro ⟨s, hs, -, hpre, hne⟩
  exact hne (TreePath.eq_of_apart h.apart (List.mem_map_of_mem hr) (List.mem_map_of_mem hs)
    hpre).symm

/-- Each record has its entry. -/
theorem ofRecord_mem_assemble (h : Flat records) (hr : r ∈ records) :
    TreeEntry.ofRecord (TreePath.ofText r.name) r ∈ assemble records := by
  refine Assembly.mem_assemble_iff.2 ⟨⟨(h.accepted r hr).2, r, hr, h.accepted r hr,
    List.prefix_refl _⟩, ?_⟩
  show _ = Assembly.entryAt _ _ (TreePath.ofText r.name, lastAt records (TreePath.ofText r.name))
  rw [h.lastAt_eq_some hr, Assembly.entryAt_ofRecord]
  right
  rw [← Bool.not_eq_true]
  exact fun hb => h.not_hasBelow hr (Assembly.anyBelow_places_iff.1 hb)

/-- An entry that is a file is that of a record. -/
theorem exists_of_mem_assemble {e : TreeEntry} (he : e ∈ assemble records)
    (hf : e.isDir = false) :
    ∃ r ∈ records, e = .ofRecord (TreePath.ofText r.name) r := by
  obtain ⟨-, heq⟩ := Assembly.mem_assemble_iff.1 he
  cases hl : lastAt records e.path with
  | none =>
      rw [hl] at heq
      rw [heq] at hf
      cases hf
  | some r =>
      obtain ⟨hr, hp⟩ := List.mem_filter.1 (List.mem_of_getLast? hl)
      have hp : r.Accepted ∧ TreePath.ofText r.name = e.path := by simpa using hp
      refine ⟨r, hr, ?_⟩
      rw [hl] at heq
      rw [Assembly.entryAt] at heq
      simp only at heq
      split_ifs at heq
      · rw [hp.2]
        exact heq
      · rw [heq] at hf
        cases hf

/-- The files of the tree are the records. -/
theorem files_perm (h : Flat records) :
    ((assemble records).filter fun e => !e.isDir).Perm
      (records.map fun r => .ofRecord (TreePath.ofText r.name) r) := by
  have hleft : ((assemble records).filter fun e => !e.isDir).Nodup :=
    (List.Nodup.of_map _ (Assembly.nodup_path_assemble records)).filter _
  have hright : (records.map fun r => TreeEntry.ofRecord (TreePath.ofText r.name) r).Nodup := by
    refine List.Nodup.of_map TreeEntry.path ?_
    rw [List.map_map]
    exact TreePath.nodup_of_apart h.apart
  refine (List.perm_ext_iff_of_nodup hleft hright).2 fun e => ?_
  rw [List.mem_filter, List.mem_map]
  constructor
  · rintro ⟨he, hf⟩
    obtain ⟨r, hr, rfl⟩ := exists_of_mem_assemble he (by simpa using hf)
    exact ⟨r, hr, rfl⟩
  · rintro ⟨r, hr, rfl⟩
    refine ⟨h.ofRecord_mem_assemble hr, ?_⟩
    simp [TreeEntry.ofRecord, h.files r hr]

end Flat

end ArchiveMount
