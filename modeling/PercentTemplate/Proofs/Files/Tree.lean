import PercentTemplate.Files.Write
import PercentTemplate.Proofs.Keyed

/-!
# Files after changes to a tree

What is at a location after an entry is set or removed, and where paths lead after it: a path is
followed through directories only, so changes that keep every directory change no way
(`FileTree.locate_eq`). A file that takes a place is read from there (`FileTree.read_of_rename`).
-/

namespace PercentTemplate

namespace FileTree

variable {t t' : FileTree} {location other source : List String} {bytes : List UInt8} {p : Path}

theorem get?_set (t : FileTree) (e : Entry) (h : other ≠ []) :
    get? (t.set location e) other = if location = other then some e else t.get? other := by
  simp [get?, set, h, Keyed.get?_put]

theorem get?_remove (t : FileTree) (h : other ≠ []) :
    get? (t.remove location) other = if location = other then none else t.get? other := by
  simp [get?, remove, h, Keyed.get?_filter_ne]

theorem get?_nil (t : FileTree) : t.get? [] = some .directory := rfl

/-- Every directory of the one tree is a directory of the other. -/
def KeepsDirectories (t t' : FileTree) : Prop :=
  ∀ location, t.get? location = some .directory → t'.get? location = some .directory

/-- A change at one location that is no directory keeps every directory. -/
theorem KeepsDirectories.of_change {e? : Option Entry} (h : t.get? location ≠ some .directory)
    (hchange : ∀ other, other ≠ [] →
      t'.get? other = if location = other then e? else t.get? other) :
    t.KeepsDirectories t' := by
  intro other hother
  by_cases hnil : other = []
  · rw [hnil, get?_nil]
  · have hne : location ≠ other := by
      rintro rfl
      exact h hother
    rw [hchange other hnil, if_neg hne, hother]

theorem KeepsDirectories.set (h : t.get? location ≠ some .directory) (e : Entry) :
    t.KeepsDirectories (t.set location e) :=
  .of_change h fun _ hnil => get?_set t e hnil

theorem KeepsDirectories.remove (h : t.get? location ≠ some .directory) :
    t.KeepsDirectories (t.remove location) :=
  .of_change h fun _ hnil => get?_remove t hnil

theorem KeepsDirectories.trans {t'' : FileTree} (h : t.KeepsDirectories t')
    (h' : t'.KeepsDirectories t'') : t.KeepsDirectories t'' :=
  fun location hlocation => h' location (h location hlocation)

/-- A way that can be gone leads to the same place if all directories are kept. -/
theorem KeepsDirectories.walk_eq (h : t.KeepsDirectories t') {parts place : List String}
    (hwalk : t.walk location parts = .ok place) : t'.walk location parts = .ok place := by
  induction parts generalizing location with
  | nil => exact hwalk
  | cons part rest ih =>
    rw [walk] at hwalk ⊢
    cases hentry : t.get? location with
    | none => simp [hentry] at hwalk
    | some e =>
      cases e with
      | file bytes => simp [hentry] at hwalk
      | directory =>
        rw [hentry] at hwalk
        rw [h location hentry]
        exact ih hwalk

theorem locate_eq (h : t.KeepsDirectories t') (hcwd : t'.workingDirectory = t.workingDirectory)
    (hlocate : t.locate p = .ok location) : t'.locate p = .ok location := by
  rw [locate, hcwd]
  exact h.walk_eq hlocate

theorem read_eq_ok_iff : t.read p = .ok bytes ↔ t.lookUp p = .ok bytes := by
  rw [read]
  cases t.lookUp p with
  | error f => exact iff_of_false nofun nofun
  | ok bytes => rfl

theorem exists_of_read (h : t.read p = .ok bytes) :
    ∃ location, t.locate p = .ok location ∧ t.get? location = some (.file bytes) := by
  rw [read_eq_ok_iff] at h
  unfold lookUp at h
  split at h
  · cases h
  · rename_i location hlocate
    split at h
    · cases h
    · cases h
    · rename_i hentry
      cases h
      exact ⟨location, hlocate, hentry⟩

theorem isDirectory_of_read (h : t.read p = .ok bytes) : t.isDirectory p = false := by
  obtain ⟨location, hlocate, hentry⟩ := exists_of_read h
  rw [isDirectory, hlocate]
  simp [hentry]

/-- The tree after a file has taken the place that a path leads to. -/
theorem exists_of_rename (h : t.rename source bytes p = .ok t') :
    ∃ location, t.locate p = .ok location ∧ t.get? location ≠ some .directory
      ∧ t' = (t.remove source).set location (.file bytes) := by
  unfold rename at h
  split at h
  · cases h
  split at h
  · cases h
  rename_i location hlocate
  split at h
  · cases h
  · rename_i hentry
    cases h
    exact ⟨location, hlocate, hentry, rfl⟩

/-- A file that takes a place is read from there. -/
theorem read_of_rename (hsource : t.get? source ≠ some .directory)
    (h : t.rename source bytes p = .ok t') : t'.read p = .ok bytes := by
  obtain ⟨location, hlocate, hentry, rfl⟩ := exists_of_rename h
  have hnil : location ≠ [] := by
    rintro rfl
    exact hentry (get?_nil t)
  have hfree : get? (t.remove source) location ≠ some .directory := by
    rw [get?_remove t hnil]
    split
    · simp
    · exact hentry
  have hkeeps := (KeepsDirectories.remove hsource).trans (.set hfree (.file bytes))
  have hplace := locate_eq hkeeps rfl hlocate
  have hfile : get? ((t.remove source).set location (.file bytes)) location
      = some (.file bytes) := by
    rw [get?_set _ _ hnil, if_pos rfl]
  rw [read_eq_ok_iff, lookUp, hplace]
  simp only [hfile]

theorem get?_of_stage (h : t.stage p bytes = (t', .ok location)) :
    t'.get? location = some (.file bytes) := by
  unfold stage at h
  split at h
  · cases h
  split at h
  · cases h
  · cases h
    rw [get?_set _ _ (by simp), if_pos rfl]

theorem read_of_stage {staged : FileTree} (h : t.stage p bytes = (staged, .ok source))
    (hrename : staged.rename source bytes p = .ok t') : t'.read p = .ok bytes := by
  refine read_of_rename ?_ hrename
  rw [get?_of_stage h]
  simp

/-- A value that is written is what is read afterwards. -/
theorem read_of_writeJson {payload : Json} (h : t.writeJson p payload = (t', none)) :
    t'.read p = .ok (Text.Utf8.encode payload.render) := by
  unfold writeJson at h
  simp only at h
  split at h
  · cases h
  rename_i hstage
  split at h
  · rename_i hrename
    cases h
    exact read_of_stage hstage hrename
  · cases h

end FileTree

end PercentTemplate
