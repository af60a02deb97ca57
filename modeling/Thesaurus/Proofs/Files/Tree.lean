import Thesaurus.Files.Tree
import Thesaurus.Proofs.Computation

/-!
# Files read back

A file is written to the location that its path leads to, and no folder may be there.
The folders on the way to it are therefore other locations than its own, so that the
path leads to the same location afterwards, where the file now is.

## Main results

* `FileTree.locate_put`: a new file changes no way through folders.
* `FileTree.textAt_withFile`: what is written is read.
-/

namespace Thesaurus

namespace FileTree

variable {t t' : FileTree} {location path text : String}

theorem entry?_put_self (entry : FileEntry) (h : location.isEmpty = false) :
    FileTree.entry? (t.put location entry) location = some entry := by
  simp [put, h, Table.get?_insert, entry?]

theorem entry?_put_of_ne (entry : FileEntry) {other : String} (h : other ≠ location) :
    FileTree.entry? (t.put location entry) other = t.entry? other := by
  simp [put, Table.get?_insert, h, entry?]

/-- A way into a folder stays when a file is put where no folder is. -/
theorem enter_put (hnew : t.entry? location ≠ some .folder) {folder part inner : String}
    (h : t.enter folder part = .ok inner) :
    (t.put location (.file text)).enter folder part = .ok inner := by
  obtain ⟨found, hfollow, hentry⟩ := bind_eq_ok_iff.1 h
  refine bind_eq_ok_iff.2 ⟨found, hfollow, ?_⟩
  split at hentry
  · next hfolder =>
      have hne : found ≠ location := by
        rintro rfl
        exact hnew hfolder
      rw [entry?_put_of_ne _ hne, hfolder]
      exact hentry
  · cases hentry
  · cases hentry

theorem foldlM_enter_put (hnew : t.entry? location ≠ some .folder) (parts : List String) :
    ∀ {folder inner : String}, parts.foldlM t.enter folder = .ok inner →
      parts.foldlM (t.put location (.file text)).enter folder = .ok inner := by
  induction parts with
  | nil => exact fun h => h
  | cons part rest ih =>
      intro folder inner h
      obtain ⟨next, henter, hrest⟩ := bind_eq_ok_iff.1 h
      exact bind_eq_ok_iff.2 ⟨next, enter_put hnew henter, ih hrest⟩

/-- A path leads where it led before when a file is put where no folder is. -/
theorem locate_put (hnew : t.entry? location ≠ some .folder) {found : String}
    (h : t.locate path = .ok found) : (t.put location (.file text)).locate path = .ok found := by
  unfold locate at h ⊢
  obtain ⟨_, hcheck, hrest⟩ := bind_eq_ok_iff.1 h
  refine bind_eq_ok_iff.2 ⟨_, hcheck, ?_⟩
  by_cases hempty : path.isEmpty = true
  · rw [if_pos hempty] at hrest
    cases hrest
  · rw [if_neg hempty] at hrest ⊢
    obtain ⟨folder, hfolder, hlast⟩ := bind_eq_ok_iff.1 hrest
    exact bind_eq_ok_iff.2 ⟨folder, foldlM_enter_put hnew _ hfolder, hlast⟩

/-- Where a file was written, it is. -/
theorem lookUp_withFile (h : t.withFile path text = .ok t') :
    t'.lookUp path = .ok (.file text) := by
  obtain ⟨location, hlocate, hput⟩ := bind_eq_ok_iff.1 h
  by_cases hfree : (namesFolder path || t.entry? location == some .folder) = true
  · rw [if_pos hfree] at hput
    cases hput
  · rw [if_neg hfree] at hput
    obtain rfl := Except.ok.inj hput
    simp only [Bool.or_eq_true, beq_iff_eq, not_or] at hfree
    obtain ⟨hname, hnew⟩ := hfree
    have hlocation : location.isEmpty = false :=
      Bool.eq_false_iff.2 fun hempty => hnew (if_pos hempty)
    refine bind_eq_ok_iff.2 ⟨location, locate_put hnew hlocate, ?_⟩
    rw [entry?_put_self _ hlocation]
    simp only [hname]
    rfl

theorem withFile_of_write
    (h : (FileSystem.write path text : ExceptT FileError (StateM FileTree) Unit).run t =
      (.ok (), t')) : t.withFile path text = .ok t' := by
  simp only [FileSystem.write, ExceptT.run_mk] at h
  split at h
  · next written hwritten =>
      cases h
      exact hwritten
  · cases h

/-- What was written to a file is read from it. -/
theorem textAt_withFile (h : t.withFile path text = .ok t') : t'.textAt path = .ok text :=
  bind_eq_ok_iff.2 ⟨_, lookUp_withFile h, rfl⟩

end FileTree

end Thesaurus
