import Mathlib.Data.List.Nodup
import Mathlib.Data.List.Perm.Subperm
import PercentTemplate.Files.Obstacle
import PercentTemplate.Proofs.Files.Way

/-!
# Writing is all or nothing

A temporary file gets a name that nothing else has (`FileTree.get?_temporaryName`), so that taking
it away leaves the tree as it was before (`FileTree.remove_set`). Once the directories above are
made, the file can be moved to its destination exactly if that was open from the beginning
(`FileTree.rename_eq_ok_iff_isOpenTo`), and a write ends in one of two ways (`FileTree.Ends`).

Main statement: whatever step of a write is refused, it either puts the file in its place or changes
nothing, apart from directories above it that are new (`FileTree.writeText_all_or_nothing`).
-/

namespace PercentTemplate

namespace FileTree

variable {t t' made : FileTree} {p : Path} {location : List String} {bytes : List UInt8}

/-! Temporary names. -/

theorem length_join_replicate (s : String) (n : Nat) :
    (String.join (List.replicate n s)).length = n * s.length := by
  induction n with
  | zero => simp
  | succ n ih => rw [List.replicate_succ, String.join_cons, String.length_append, ih, Nat.succ_mul,
      Nat.add_comm]

theorem temporaryNameAt_injective (name : String) : Function.Injective (temporaryNameAt name) := by
  intro m n h
  have hlength := congrArg String.length h
  simp only [temporaryNameAt, String.length_append, length_join_replicate] at hlength
  have htag : "TMP".length = 3 := rfl
  rw [htag] at hlength
  omega

/-- Among more candidates than there are entries one is free. -/
theorem exists_get?_eq_none (t : FileTree) {candidate : Nat → List String}
    (hinjective : Function.Injective candidate) (hne : ∀ tries, candidate tries ≠ []) :
    ∃ tries < t.entries.length + 1, t.get? (candidate tries) = none := by
  -- Otherwise all candidates, which are distinct, are among the locations that have entries.
  by_contra hnone
  have htaken : (List.range (t.entries.length + 1)).map candidate ⊆ Keyed.keys t.entries := by
    intro location hlocation
    obtain ⟨tries, htries, rfl⟩ := List.mem_map.1 hlocation
    rw [← Keyed.isSome_get?, ← Option.ne_none_iff_isSome]
    intro hget
    refine hnone ⟨tries, List.mem_range.1 htries, ?_⟩
    rwa [get?, if_neg (by simpa using hne tries)]
  have hnodup := List.Nodup.map hinjective (List.nodup_range (n := t.entries.length + 1))
  have hlength := (List.subperm_of_subset hnodup htaken).length_le
  rw [List.length_map, List.length_range, Keyed.keys, List.length_map] at hlength
  exact Nat.not_succ_le_self _ hlength

/-- A temporary name is one of the candidates, and there is nothing under it. -/
theorem exists_temporaryName_eq (t : FileTree) (directory : List String) (name : String) :
    ∃ tries, t.temporaryName directory name = temporaryNameAt name tries
      ∧ t.get? (directory ++ [temporaryNameAt name tries]) = none := by
  have hinjective : Function.Injective fun tries => directory ++ [temporaryNameAt name tries] := by
    intro m n h
    exact temporaryNameAt_injective name (List.singleton_inj.1 (List.append_cancel_left h))
  obtain ⟨tries, htries, hfree⟩ := t.exists_get?_eq_none hinjective (by simp)
  rw [temporaryName]
  cases hfind : ((List.range (t.entries.length + 1)).map (temporaryNameAt name)).find? fun n =>
      (t.get? (directory ++ [n])).isNone with
  | some n =>
    have hname := List.find?_some hfind
    obtain ⟨found, -, rfl⟩ := List.mem_map.1 (List.mem_of_find?_eq_some hfind)
    exact ⟨found, rfl, Option.isNone_iff_eq_none.1 hname⟩
  | none =>
    have hcandidate := List.mem_map_of_mem (f := temporaryNameAt name) (List.mem_range.2 htries)
    have htaken := List.find?_eq_none.1 hfind _ hcandidate
    rw [hfree] at htaken
    exact absurd rfl htaken

/-- There is nothing under a temporary name. -/
theorem get?_temporaryName (t : FileTree) (directory : List String) (name : String) :
    t.get? (directory ++ [t.temporaryName directory name]) = none := by
  obtain ⟨tries, heq, hfree⟩ := t.exists_temporaryName_eq directory name
  rw [heq, hfree]

/-! A temporary file. -/

theorem set_set (t : FileTree) (location : List String) (e e' : Entry) :
    (t.set location e).set location e' = t.set location e' := by
  rw [set, set, set, Keyed.put_put]

/-- What is removed as soon as it is made leaves no trace. -/
theorem remove_set (h : t.get? location = none) (e : Entry) :
    (t.set location e).remove location = t := by
  have hnew : location ∉ Keyed.keys t.entries := by
    rw [get?, if_neg (by simpa using ne_nil_of_get?_eq_none h)] at h
    rw [← Keyed.isSome_get?, h]
    exact Bool.false_ne_true
  have hkeep : t.entries.filter (fun other => other.1 != location) = t.entries := by
    rw [List.filter_eq_self]
    intro other hother
    rw [bne_iff_ne]
    rintro rfl
    exact hnew (List.mem_map_of_mem hother)
  rw [remove, set, Keyed.put_of_notMem hnew, List.filter_append, hkeep]
  simp

theorem rename_eq_ok_iff {source : List String} :
    t.rename source bytes p = .ok t'
      ↔ p.parts ≠ [] ∧ p.name ≠ ".." ∧ t.IsPassable p
        ∧ t.get? (t.destination p) ≠ some .directory
        ∧ (t.remove source).set (t.destination p) (.file bytes) = t' := by
  by_cases hparts : p.parts = []
  · simp [rename, hparts]
  by_cases hname : p.name = ".."
  · simp [rename, hname]
  by_cases hpassable : t.IsPassable p
  · have hlocate := locate_eq_ok_iff.2 ⟨hpassable, rfl⟩
    cases hentry : t.get? (t.destination p) with
    | none => simp [rename, hparts, hname, hlocate, hpassable, hentry]
    | some e => cases e <;> simp [rename, hparts, hname, hlocate, hpassable, hentry]
  · obtain ⟨f, hlocate⟩ := exists_locate_eq_error hpassable
    simp [rename, hparts, hname, hlocate, hpassable]

/-! Destinations. -/

/-- A location is a place of a path between its beginning and its destination. -/
def IsAbove (t : FileTree) (p : Path) (location : List String) : Prop :=
  ∃ n < p.parts.length, 0 < n ∧ location = t.place p n

/-- A path ends in a name, no file is on the way, and no directory is in its place, even once the
missing ones on the way are made. -/
structure IsOpenTo (t : FileTree) (p : Path) : Prop where
  parts_ne : p.parts ≠ []
  name_ne : p.name ≠ ".."
  isClear : t.IsClear p.parent
  ne_directory : t.get? (t.destination p) ≠ some .directory
  ne_place : ∀ n < p.parts.length, t.place p n ≠ t.destination p

/-- A file with the given bytes is in the place of a path. Every other file is as before, and
nothing is new but directories above. -/
structure Delivers (t : FileTree) (p : Path) (bytes : List UInt8) (t' : FileTree) : Prop where
  read_eq : t'.read p = .ok bytes
  workingDirectory_eq : t'.workingDirectory = t.workingDirectory
  ne_directory : t.get? (t.destination p) ≠ some .directory
  destination_eq : t'.get? (t.destination p) = some (.file bytes)
  get?_eq : ∀ location ≠ t.destination p, t'.get? location = t.get? location
    ∨ t.get? location = none ∧ t'.get? location = some .directory ∧ t.IsAbove p location

/-! One write. -/

theorem Obstacles.eq_free_iff {o : Obstacles} :
    o = .free
      ↔ o.directories = none ∧ o.temporary = false ∧ o.contents = none ∧ o.move = false := by
  cases o
  simp [Obstacles.free]

theorem adds_ensureDirs {q : Path} (hbegins : Begins q p.parent) :
    AddsDirectories (t.IsAbove p) t (t.ensureDirs q).1 := by
  refine (ensures_ensureDirs t q).adds.mono ?_
  rintro location ⟨n, hn, hpos, rfl⟩
  have hle : n ≤ p.parts.length - 1 := by
    rw [← List.length_dropLast]
    exact Nat.le_trans hn hbegins.length_le
  rw [hbegins.place_eq t hn, (begins_parent p).place_eq t (Nat.le_trans hn hbegins.length_le)]
  exact ⟨n, by omega, hpos, rfl⟩

theorem adds_prepare (t : FileTree) (o : Obstacles) (p : Path) :
    AddsDirectories (t.IsAbove p) t (t.prepare o p).1 := by
  unfold prepare
  split
  · exact adds_ensureDirs ⟨rfl, List.prefix_refl _⟩
  · exact adds_ensureDirs ⟨rfl, List.take_prefix _ _⟩

/-- The directories above a path have been made without a problem. -/
theorem ensures_of_prepare {o : Obstacles} (h : t.prepare o p = (made, none)) :
    o.directories = none ∧ t.Ensures p.parent made none := by
  have hensures := t.ensures_ensureDirs p.parent
  unfold prepare at h
  cases hdirectories : o.directories with
  | some count => simp [hdirectories] at h
  | none =>
    rw [hdirectories] at h
    cases hresult : t.ensureDirs p.parent with
    | mk files fault =>
      rw [hresult] at h hensures
      cases fault with
      | some f => cases h
      | none =>
        cases h
        exact ⟨rfl, hensures⟩

/-- A destination that is open is no reason for a problem with the directories above it. -/
theorem IsOpenTo.prepare_eq (h : t.IsOpenTo p) : (t.prepare .free p).2 = none := by
  have hensures := t.ensures_ensureDirs p.parent
  dsimp only [prepare, Obstacles.free]
  rw [hensures.fault_eq h.isClear, Option.map_none]

/-- A file in a place where nothing was changes no way. -/
theorem get?_set_file_eq_directory_iff (hfree : t.get? location = none) {other : List String} :
    get? (t.set location (.file bytes)) other = some .directory
      ↔ t.get? other = some .directory := by
  by_cases hnil : other = []
  · rw [hnil, get?_nil, get?_nil]
  · rw [get?_set _ _ hnil]
    split
    · rename_i heq
      subst heq
      simp [hfree]
    · rfl

theorem isPassable_set_file_iff (hfree : t.get? location = none) :
    IsPassable (t.set location (.file bytes)) p ↔ t.IsPassable p :=
  forall₂_congr fun _ _ => get?_set_file_eq_directory_iff hfree

/-- With the directories above made and a temporary file beside it, a destination can be taken
exactly if it was open. -/
theorem rename_eq_ok_iff_isOpenTo (h : t.Ensures p.parent made none)
    (hfree : made.get? location = none) :
    (made.set location (.file bytes)).rename location bytes p = .ok t'
      ↔ t.IsOpenTo p ∧ made.set (t.destination p) (.file bytes) = t' := by
  have hdestination : destination (made.set location (.file bytes)) p = t.destination p :=
    h.adds.place_eq p _
  have hplace : ∀ n < p.parts.length, t.place p.parent n = t.place p n :=
    fun n hn => (begins_parent p).place_eq t (by rw [Path.parent, List.length_dropLast]; omega)
  rw [rename_eq_ok_iff, remove_set hfree, isPassable_set_file_iff hfree, hdestination, ne_eq,
    ne_eq, ne_eq, get?_set_file_eq_directory_iff hfree]
  constructor
  · rintro ⟨hparts, hname, hpassable, hdirectory, rfl⟩
    -- Whatever was in the way when the directories were made would still be there.
    have hstart : t.get? (t.place p.parent 0) = some .directory := by
      rw [hplace 0 (List.length_pos_iff.2 hparts)]
      exact (h.isPassable_iff hparts).1 hpassable
    refine ⟨⟨hparts, hname, ⟨hstart, ?_⟩, ?_, ?_⟩, rfl⟩
    · intro n hn bytes hfile
      have hmade := h.directories rfl hstart n hn
      rw [h.adds.get?_eq_file_iff.2 hfile] at hmade
      cases hmade
    · exact fun hdir => hdirectory (h.adds.keepsDirectories _ hdir)
    · intro n hn heq
      have hdir := hpassable n hn
      rw [h.adds.place_eq, heq] at hdir
      exact hdirectory hdir
  · rintro ⟨hopen, rfl⟩
    have hpos := List.length_pos_iff.2 hopen.parts_ne
    refine ⟨hopen.parts_ne, hopen.name_ne, ?_, ?_, rfl⟩
    · rw [h.isPassable_iff hopen.parts_ne, ← hplace 0 hpos]
      exact hopen.isClear.start_eq
    · intro hdir
      -- A directory in the place of the destination was there before or has just been made.
      rcases h.adds.get?_eq (t.destination p) with hsame | ⟨-, -, n, hn, -, heq⟩
      · exact hopen.ne_directory (hsame ▸ hdir)
      · have hlt : n < p.parts.length := by
          rw [Path.parent, List.length_dropLast] at hn
          omega
        exact hopen.ne_place n hlt ((hplace n hlt).symm.trans heq.symm)

/-- Where the temporary file of a write goes is free. -/
theorem exists_locate_parent (h : t.Ensures p.parent made none) (hopen : t.IsOpenTo p) :
    ∃ directory, made.locate p.parent = .ok directory := by
  have hpassable : made.IsPassable p := by
    rw [h.isPassable_iff hopen.parts_ne,
      ← (begins_parent p).place_eq t (Nat.zero_le _)]
    exact hopen.isClear.start_eq
  exact ⟨_, locate_eq_ok_iff.2 ⟨(begins_parent p).isPassable hpassable, rfl⟩⟩

/-- Where a write ends that comes to the tree `made` with the directories above. -/
inductive Ends (t made : FileTree) (o : Obstacles) (p : Path) (bytes : List UInt8) :
    Progress → Prop
  /-- The file has come to its place. -/
  | delivered {w : Progress} (isFree : o = .free) (isOpenTo : t.IsOpenTo p)
      (problem_eq : w.problem = none) (read_eq : w.cleared.read p = .ok bytes)
      (cleared_eq : w.cleared = made.set (t.destination p) (.file bytes)) : Ends t made o p bytes w
  /-- There is a problem. Without the temporary file the tree is as before. -/
  | undone {w : Progress} {problem : Problem} (not_and : ¬(o = .free ∧ t.IsOpenTo p))
      (problem_eq : w.problem = some problem) (cleared_eq : w.cleared = made) :
      Ends t made o p bytes w

namespace Ends

variable {o : Obstacles}

/-- A temporary file that is there when a step is refused is taken away. -/
theorem refused (hne : o ≠ .free) (hfree : made.get? location = none) (contents : List UInt8) :
    t.Ends made o p bytes
      ⟨made.set location (.file contents), some location, some .refused⟩ :=
  undone (fun h => hne h.1) rfl (remove_set hfree _)

/-- A temporary file that cannot take the destination is taken away, and the destination was not
open. -/
theorem of_rename_error {f : Fault} (h : t.Ensures p.parent made none)
    (hfree : made.get? location = none)
    (hrename : (made.set location (.file bytes)).rename location bytes p = .error f) :
    t.Ends made o p bytes
      ⟨made.set location (.file bytes), some location, some (.fault f)⟩ := by
  refine undone (fun hopen => ?_) rfl (remove_set hfree _)
  rw [(rename_eq_ok_iff_isOpenTo h hfree).2 ⟨hopen.2, rfl⟩] at hrename
  cases hrename

theorem of_rename_ok (hunhindered : o = .free) (h : t.Ensures p.parent made none)
    (hfree : made.get? location = none)
    (hrename : (made.set location (.file bytes)).rename location bytes p = .ok t') :
    t.Ends made o p bytes ⟨t', none, none⟩ := by
  obtain ⟨hopen, heq⟩ := (rename_eq_ok_iff_isOpenTo h hfree).1 hrename
  have hfile : get? (made.set location (.file bytes)) location ≠ some .directory := by
    rw [ne_eq, get?_set_file_eq_directory_iff hfree, hfree]
    nofun
  exact delivered hunhindered hopen rfl (read_of_rename hfile hrename) heq.symm

end Ends

/-- A write with the directories above in place goes on to the end unless a step is refused or the
destination is closed. -/
theorem ends_of_prepare {o : Obstacles} (h : t.prepare o p = (made, none)) (bytes : List UInt8) :
    t.Ends made o p bytes (t.attempt o p bytes) := by
  obtain ⟨hdirectories, hensures⟩ := ensures_of_prepare h
  rw [attempt, h]
  dsimp only
  split
  · rename_i f hlocate
    refine .undone (fun hopen => ?_) rfl rfl
    obtain ⟨directory, hdirectory⟩ := exists_locate_parent hensures hopen.2
    rw [hdirectory] at hlocate
    cases hlocate
  rename_i directory hlocate
  have hfree := get?_temporaryName made directory p.name
  -- All that matters about the temporary file is that its place was free.
  generalize directory ++ [made.temporaryName directory p.name] = location at hfree ⊢
  simp only [set_set]
  split
  · rename_i htemporary
    refine .undone ?_ rfl rfl
    rintro ⟨rfl, -⟩
    cases htemporary
  rename_i htemporary
  split
  · rename_i count hcontents
    refine .refused ?_ hfree _
    rintro rfl
    cases hcontents
  rename_i hcontents
  split
  · rename_i hmove
    refine .refused ?_ hfree _
    rintro rfl
    cases hmove
  rename_i hmove
  have hunhindered : o = .free := Obstacles.eq_free_iff.2
    ⟨hdirectories, Bool.eq_false_iff.2 htemporary, hcontents, Bool.eq_false_iff.2 hmove⟩
  split
  · rename_i hrename
    exact .of_rename_ok hunhindered hensures hfree hrename
  · rename_i hrename
    exact .of_rename_error hensures hfree hrename

theorem ends_attempt (t : FileTree) (o : Obstacles) (p : Path) (bytes : List UInt8) :
    t.Ends (t.prepare o p).1 o p bytes (t.attempt o p bytes) := by
  cases hprepare : t.prepare o p with
  | mk made problem =>
    cases problem with
    | none => exact ends_of_prepare hprepare bytes
    | some problem =>
      rw [attempt, hprepare]
      refine .undone ?_ rfl rfl
      rintro ⟨rfl, hopen⟩
      have hnone := hopen.prepare_eq
      rw [hprepare] at hnone
      cases hnone

/-- A file in its place with the directories above it is a delivery. -/
theorem IsOpenTo.delivers (h : t.IsOpenTo p) (hadds : AddsDirectories (t.IsAbove p) t made)
    (hread : t'.read p = .ok bytes) (heq : t' = made.set (t.destination p) (.file bytes)) :
    t.Delivers p bytes t' := by
  have hnil : t.destination p ≠ [] := by
    intro hnil
    exact h.ne_directory (by rw [hnil, get?_nil])
  refine ⟨hread, ?_, h.ne_directory, ?_, fun location hne => ?_⟩
  · rw [heq]
    exact hadds.workingDirectory_eq
  · rw [heq, get?_set _ _ hnil, if_pos rfl]
  · have hsame : t'.get? location = made.get? location := by
      by_cases hroot : location = []
      · rw [hroot, get?_nil, get?_nil]
      · rw [heq, get?_set _ _ hroot, if_neg hne.symm]
    rw [hsame]
    exact hadds.get?_eq location

/-- Without obstacles it takes a fault of the tree to stop a write. -/
theorem writeTextAgainst_free (t : FileTree) (p : Path) (text : String) :
    t.writeTextAgainst .free p text
      = ((t.writeText p text).1, (t.writeText p text).2.map .fault) := by
  rw [writeTextAgainst, writeText, attempt, stage, prepare, Obstacles.free]
  dsimp only
  cases t.ensureDirs p.parent with
  | mk made fault =>
    cases fault with
    | some f => rfl
    | none =>
      dsimp only [Option.map_none]
      cases made.locate p.parent with
      | error f => rfl
      | ok directory =>
        dsimp only
        rw [if_neg Bool.false_ne_true, if_neg Bool.false_ne_true, set_set]
        cases rename _ (directory ++ [made.temporaryName directory p.name]) _ p with
        | error f => rfl
        | ok t' => rfl

/-- What is left of a write is a delivery or the tree with new directories above. -/
theorem delivers_or_adds (t : FileTree) (o : Obstacles) (p : Path) (text : String) :
    (∃ t', t.writeTextAgainst o p text = (t', none) ∧ t.Delivers p (Text.Utf8.encode text) t')
      ∨ ∃ t' problem, t.writeTextAgainst o p text = (t', some problem)
        ∧ AddsDirectories (t.IsAbove p) t t' := by
  have hadds := adds_prepare t o p
  rw [writeTextAgainst]
  cases ends_attempt t o p (Text.Utf8.encode text) with
  | delivered _ isOpenTo problem_eq read_eq cleared_eq =>
    exact .inl ⟨_, by rw [problem_eq], isOpenTo.delivers hadds read_eq cleared_eq⟩
  | undone _ problem_eq cleared_eq =>
    exact .inr ⟨_, _, by rw [problem_eq], cleared_eq ▸ hadds⟩

theorem problem_eq_none_iff (t : FileTree) (o : Obstacles) (p : Path) (text : String) :
    (t.writeTextAgainst o p text).2 = none ↔ o = .free ∧ t.IsOpenTo p := by
  rw [writeTextAgainst]
  cases ends_attempt t o p (Text.Utf8.encode text) with
  | delivered isFree isOpenTo problem_eq => exact iff_of_true problem_eq ⟨isFree, isOpenTo⟩
  | undone not_and problem_eq => exact iff_of_false (by rw [problem_eq]; nofun) not_and

/-- A destination that is open is no directory. -/
theorem IsOpenTo.isDirectory_eq (h : t.IsOpenTo p) : t.isDirectory p = false := by
  rw [isDirectory]
  cases hlocate : t.locate p with
  | error f => rfl
  | ok location =>
    obtain ⟨-, rfl⟩ := locate_eq_ok_iff.1 hlocate
    simpa using h.ne_directory

theorem fault_writeText_eq_none_iff (t : FileTree) (p : Path) (text : String) :
    (t.writeText p text).2 = none ↔ t.IsOpenTo p := by
  have hiff := problem_eq_none_iff t .free p text
  rw [writeTextAgainst_free, Option.map_eq_none_iff] at hiff
  simpa using hiff

theorem delivers_of_writeText {text : String} (h : t.writeText p text = (t', none)) :
    t.Delivers p (Text.Utf8.encode text) t' := by
  have hagainst : t.writeTextAgainst .free p text = (t', none) := by
    rw [writeTextAgainst_free, h, Option.map_none]
  rcases delivers_or_adds t .free p text with ⟨made, hmade, hdelivers⟩ | ⟨made, problem, hmade, -⟩
  · cases hagainst.symm.trans hmade
    exact hdelivers
  · cases hagainst.symm.trans hmade

/-- Against whatever obstacles a text is written, either its bytes are in the file that the path
leads to and nothing else has changed, or no file has changed and no temporary file is left; in both
cases directories above may be new. It succeeds exactly if nothing is refused and the destination is
open. -/
theorem writeText_all_or_nothing (t : FileTree) (p : Path) (text : String) :
    (∀ o : Obstacles,
      (∃ t', t.writeTextAgainst o p text = (t', none)
        ∧ t.Delivers p (Text.Utf8.encode text) t')
      ∨ ∃ t' problem, t.writeTextAgainst o p text = (t', some problem)
        ∧ AddsDirectories (t.IsAbove p) t t')
    ∧ (∀ o : Obstacles, (t.writeTextAgainst o p text).2 = none ↔ o = .free ∧ t.IsOpenTo p)
    ∧ t.writeTextAgainst .free p text
        = ((t.writeText p text).1, (t.writeText p text).2.map .fault) :=
  ⟨fun o => delivers_or_adds t o p text, fun o => problem_eq_none_iff t o p text,
    writeTextAgainst_free t p text⟩

end FileTree

end PercentTemplate
