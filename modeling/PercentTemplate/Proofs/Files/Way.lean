import PercentTemplate.Proofs.Files.Tree

/-!
# The way of a path

A path leads through places, one for each of its components, which are known before anything is
looked up (`FileTree.place`). It can be followed if all of them but the last are directories
(`FileTree.locate_eq_ok_iff`). Making the directories of a path adds directories at these places and
nothing else, and succeeds unless a file is in the way (`FileTree.ensures_ensureDirs`).
-/

namespace PercentTemplate

namespace FileTree

variable {t t' t'' : FileTree} {p q : Path} {location : List String} {parts : List String}

/-- Where a component leads from a location. -/
def step (location : List String) (part : String) : List String :=
  if part = ".." then location.dropLast else location ++ [part]

/-- Where a path begins. -/
def origin (t : FileTree) (p : Path) : List String :=
  if p.isAbsolute then [] else t.workingDirectory

/-- Where the first `n` components of a path lead if everything on the way is a directory. -/
def place (t : FileTree) (p : Path) (n : Nat) : List String :=
  (p.parts.take n).foldl step (t.origin p)

/-- The place where the whole path leads. -/
def destination (t : FileTree) (p : Path) : List String := t.place p p.parts.length

/-- All places of a path before the last one are directories. -/
def IsPassable (t : FileTree) (p : Path) : Prop :=
  ∀ n < p.parts.length, t.get? (t.place p n) = some .directory

/-- A path begins in a directory, and no place of it is a file. -/
structure IsClear (t : FileTree) (p : Path) : Prop where
  start_eq : t.get? (t.place p 0) = some .directory
  ne_file : ∀ n ≤ p.parts.length, ∀ bytes, t.get? (t.place p n) ≠ some (.file bytes)

/-! Following a path. -/

theorem walk_eq_ok_iff {other : List String} :
    t.walk location parts = .ok other
      ↔ (∀ n < parts.length, t.get? ((parts.take n).foldl step location) = some .directory)
        ∧ parts.foldl step location = other := by
  induction parts generalizing location with
  | nil => simp [walk]
  | cons part rest ih =>
    rw [walk, List.length_cons, Nat.forall_lt_succ_left, List.take_zero, List.foldl_nil]
    cases hentry : t.get? location with
    | none => simp
    | some e =>
      cases e with
      | file bytes => simp
      | directory =>
        simp only [true_and]
        exact ih

theorem exists_of_walk_eq_error {f : Fault} (h : t.walk location parts = .error f) :
    ∃ n < parts.length,
      t.get? ((parts.take n).foldl step location) = none ∧ f = .notFound
        ∨ (∃ bytes, t.get? ((parts.take n).foldl step location) = some (.file bytes))
          ∧ f = .notDirectory := by
  induction parts generalizing location with
  | nil => cases h
  | cons part rest ih =>
    rw [walk] at h
    cases hentry : t.get? location with
    | none =>
      rw [hentry] at h
      cases h
      exact ⟨0, Nat.succ_pos _, .inl ⟨hentry, rfl⟩⟩
    | some e =>
      rw [hentry] at h
      cases e with
      | file bytes =>
        cases h
        exact ⟨0, Nat.succ_pos _, .inr ⟨⟨bytes, hentry⟩, rfl⟩⟩
      | directory =>
        obtain ⟨n, hn, hplace⟩ := ih h
        exact ⟨n + 1, Nat.succ_lt_succ hn, hplace⟩

theorem locate_eq_ok_iff :
    t.locate p = .ok location ↔ t.IsPassable p ∧ t.destination p = location := by
  rw [destination, place, List.take_length]
  exact walk_eq_ok_iff

/-- A path that cannot be followed comes to a place where nothing is, or to a file. -/
theorem exists_of_locate_eq_error {f : Fault} (h : t.locate p = .error f) :
    ∃ n < p.parts.length,
      t.get? (t.place p n) = none ∧ f = .notFound
        ∨ (∃ bytes, t.get? (t.place p n) = some (.file bytes)) ∧ f = .notDirectory :=
  exists_of_walk_eq_error h

theorem exists_locate_eq_error (h : ¬t.IsPassable p) : ∃ f, t.locate p = .error f := by
  cases hlocate : t.locate p with
  | error f => exact ⟨f, rfl⟩
  | ok location => exact absurd (locate_eq_ok_iff.1 hlocate).1 h

/-- A path goes on from where the path `q` leads. -/
structure Begins (q p : Path) : Prop where
  isAbsolute_eq : q.isAbsolute = p.isAbsolute
  parts_prefix : q.parts <+: p.parts

theorem begins_parent (p : Path) : Begins p.parent p := ⟨rfl, List.dropLast_prefix _⟩

namespace Begins

theorem length_le (h : Begins q p) : q.parts.length ≤ p.parts.length := h.parts_prefix.length_le

/-- The places of a beginning of a path are places of the path. -/
theorem place_eq (h : Begins q p) (t : FileTree) {n : Nat} (hn : n ≤ q.parts.length) :
    t.place q n = t.place p n := by
  obtain ⟨tail, htail⟩ := h.parts_prefix
  rw [place, place, origin, origin, h.isAbsolute_eq, ← htail, List.take_append_of_le_length hn]

theorem isPassable (h : Begins q p) (hpassable : t.IsPassable p) : t.IsPassable q := by
  intro n hn
  rw [h.place_eq t (Nat.le_of_lt hn)]
  exact hpassable n (Nat.lt_of_lt_of_le hn h.length_le)

theorem isClear (h : Begins q p) (hclear : t.IsClear p) : t.IsClear q where
  start_eq := by
    rw [h.place_eq t (Nat.zero_le _)]
    exact hclear.start_eq
  ne_file n hn bytes := by
    rw [h.place_eq t hn]
    exact hclear.ne_file n (Nat.le_trans hn h.length_le) bytes

end Begins

/-! New directories. -/

theorem ne_nil_of_get?_eq_none (h : t.get? location = none) : location ≠ [] := by
  rintro rfl
  cases h

/-- The tree `t'` has new directories at locations of a kind and is otherwise the tree `t`. -/
structure AddsDirectories (new : List String → Prop) (t t' : FileTree) : Prop where
  workingDirectory_eq : t'.workingDirectory = t.workingDirectory
  get?_eq : ∀ location, t'.get? location = t.get? location
    ∨ t.get? location = none ∧ t'.get? location = some .directory ∧ new location

namespace AddsDirectories

variable {new new' : List String → Prop}

theorem refl (t : FileTree) : AddsDirectories new t t where
  workingDirectory_eq := rfl
  get?_eq _ := .inl rfl

theorem mono (h : AddsDirectories new t t') (hnew : ∀ location, new location → new' location) :
    AddsDirectories new' t t' where
  workingDirectory_eq := h.workingDirectory_eq
  get?_eq location := (h.get?_eq location).imp_right fun ⟨hnone, hdir, hlocation⟩ =>
    ⟨hnone, hdir, hnew location hlocation⟩

theorem set (h : t.get? location = none) :
    AddsDirectories (· = location) t (t.set location .directory) where
  workingDirectory_eq := rfl
  get?_eq other := by
    by_cases hother : other = location
    · subst hother
      refine .inr ⟨h, ?_, rfl⟩
      rw [get?_set t .directory (ne_nil_of_get?_eq_none h), if_pos rfl]
    · refine .inl ?_
      by_cases hnil : other = []
      · rw [hnil, get?_nil, get?_nil]
      · rw [get?_set t .directory hnil, if_neg (Ne.symm hother)]

theorem trans (h : AddsDirectories new t t') (h' : AddsDirectories new t' t'') :
    AddsDirectories new t t'' where
  workingDirectory_eq := h'.workingDirectory_eq.trans h.workingDirectory_eq
  get?_eq location := by
    rcases h'.get?_eq location with hsame | ⟨hnone, hdir, hnew⟩
    · rw [hsame]
      exact h.get?_eq location
    · rcases h.get?_eq location with hsame | ⟨-, hdir', -⟩
      · exact .inr ⟨hsame ▸ hnone, hdir, hnew⟩
      · rw [hdir'] at hnone
        cases hnone

theorem keepsDirectories (h : AddsDirectories new t t') : t.KeepsDirectories t' := by
  intro location hdir
  rcases h.get?_eq location with hsame | ⟨-, hnew, -⟩
  · rw [hsame, hdir]
  · exact hnew

/-- No file is new. -/
theorem get?_eq_file_iff (h : AddsDirectories new t t') {bytes : List UInt8} :
    t'.get? location = some (.file bytes) ↔ t.get? location = some (.file bytes) := by
  rcases h.get?_eq location with hsame | ⟨hnone, hdir, -⟩
  · rw [hsame]
  · simp [hnone, hdir]

theorem place_eq (h : AddsDirectories new t t') (p : Path) (n : Nat) :
    t'.place p n = t.place p n := by
  rw [place, place, origin, origin, h.workingDirectory_eq]

theorem isClear (h : AddsDirectories new t t') (hclear : t.IsClear p) : t'.IsClear p where
  start_eq := by
    rw [h.place_eq]
    exact h.keepsDirectories _ hclear.start_eq
  ne_file n hn bytes := by
    rw [h.place_eq, ne_eq, h.get?_eq_file_iff]
    exact hclear.ne_file n hn bytes

end AddsDirectories

/-! Making directories. -/

/-- A location is a place of a path behind its beginning. -/
def IsBehind (t : FileTree) (p : Path) (location : List String) : Prop :=
  ∃ n ≤ p.parts.length, 0 < n ∧ location = t.place p n

/-- What it comes to that the directories of a path are made: the tree `t'`, and a fault if that
does not succeed. -/
structure Ensures (t : FileTree) (p : Path) (t' : FileTree) (fault : Option Fault) : Prop where
  adds : AddsDirectories (t.IsBehind p) t t'
  /-- If it succeeds and there is something to do, the path begins in a directory. -/
  start_eq : fault = none → p.parts ≠ [] → t.get? (t.place p 0) = some .directory
  /-- If it succeeds, every place of the path is a directory. -/
  directories : fault = none → t.get? (t.place p 0) = some .directory →
    ∀ n ≤ p.parts.length, t'.get? (t.place p n) = some .directory
  /-- It succeeds if no file is in the way. -/
  fault_eq : t.IsClear p → fault = none

theorem ensures_of_not_isClear (h : ¬t.IsClear p) (f : Fault) : t.Ensures p t (some f) where
  adds := .refl t
  start_eq := nofun
  directories := nofun
  fault_eq hclear := absurd hclear h

theorem ensures_of_directories
    (h : ∀ n ≤ p.parts.length, t.get? (t.place p n) = some .directory) : t.Ensures p t none where
  adds := .refl t
  start_eq _ _ := h 0 (Nat.zero_le _)
  directories _ _ := h
  fault_eq _ := rfl

/-- The places of a passable path are directories if the last one is. -/
theorem IsPassable.directories (h : t.IsPassable p)
    (hlast : t.get? (t.destination p) = some .directory) :
    ∀ n ≤ p.parts.length, t.get? (t.place p n) = some .directory := by
  intro n hn
  rcases Nat.lt_or_eq_of_le hn with hlt | rfl
  · exact h n hlt
  · exact hlast

theorem makeDir_eq_of_isPassable (h : t.IsPassable p) :
    t.makeDir p = match t.get? (t.destination p) with
      | some _ => .error .exists
      | none => .ok (t.set (t.destination p) .directory) := by
  have hlocate := locate_eq_ok_iff.2 ⟨h, rfl⟩
  cases hentry : t.get? (t.destination p) <;> simp [makeDir, hlocate, hentry]

theorem ensures_ensureDir (h : t.IsPassable p) (hparts : p.parts ≠ []) :
    t.Ensures p (t.ensureDir p).1 (t.ensureDir p).2 := by
  have hlocate := locate_eq_ok_iff.2 ⟨h, rfl⟩
  rw [ensureDir, makeDir_eq_of_isPassable h]
  cases hentry : t.get? (t.destination p) with
  | none =>
    have hadds := AddsDirectories.set hentry
    have hdirs : ∀ n ≤ p.parts.length,
        get? (t.set (t.destination p) .directory) (t.place p n) = some .directory := by
      intro n hn
      rcases Nat.lt_or_eq_of_le hn with hlt | rfl
      · exact hadds.keepsDirectories _ (h n hlt)
      · exact (get?_set t .directory (ne_nil_of_get?_eq_none hentry)).trans (if_pos rfl)
    exact {
      adds := hadds.mono fun location hlocation =>
        ⟨_, Nat.le_refl _, List.length_pos_iff.2 hparts, hlocation⟩
      start_eq := fun _ _ => h 0 (List.length_pos_iff.2 hparts)
      directories := fun _ _ => hdirs
      fault_eq := fun _ => rfl }
  | some e =>
    cases e with
    | directory =>
      have hdir : t.isDirectory p = true := by simp [isDirectory, hlocate, hentry]
      simp only [hdir, if_true]
      exact ensures_of_directories (h.directories hentry)
    | file bytes =>
      have hdir : t.isDirectory p = false := by simp [isDirectory, hlocate, hentry]
      simp only [hdir]
      exact ensures_of_not_isClear (fun hclear => hclear.ne_file _ (Nat.le_refl _) bytes hentry) _

/-- Without a way to a directory it is not made. -/
theorem exists_ensureDir_eq (h : ¬t.IsPassable p) : ∃ f, t.ensureDir p = (t, some f) := by
  obtain ⟨f, hlocate⟩ := exists_locate_eq_error h
  exact ⟨f, by simp [ensureDir, makeDir, isDirectory, hlocate]⟩

/-- A directory that cannot be made has its place or is not clear, unless nothing is above it. -/
theorem isPassable_or_not_isClear (h : t.makeDir p ≠ .error .notFound) :
    t.IsPassable p ∨ ¬t.IsClear p := by
  by_cases hpassable : t.IsPassable p
  · exact .inl hpassable
  · refine .inr fun hclear => ?_
    obtain ⟨f, hlocate⟩ := exists_locate_eq_error hpassable
    obtain ⟨n, hn, ⟨-, rfl⟩ | ⟨⟨bytes, hfile⟩, -⟩⟩ := exists_of_locate_eq_error hlocate
    · exact h (by rw [makeDir, hlocate])
    · exact hclear.ne_file n (Nat.le_of_lt hn) bytes hfile

namespace Ensures

variable {fault : Option Fault}

theorem adds_of_parent (h : t.Ensures p.parent t' fault) :
    AddsDirectories (t.IsBehind p) t t' := by
  refine h.adds.mono ?_
  rintro location ⟨n, hn, hpos, rfl⟩
  have hbegins := begins_parent p
  exact ⟨n, Nat.le_trans hn hbegins.length_le, hpos, hbegins.place_eq t hn⟩

/-- If the directories above cannot be made, neither can the last one. -/
theorem of_parent {f : Fault} (h : t.Ensures p.parent t' (some f)) : t.Ensures p t' (some f) where
  adds := h.adds_of_parent
  start_eq := nofun
  directories := nofun
  fault_eq hclear := h.fault_eq ((begins_parent p).isClear hclear)

/-- Once the directories above are there, a path is passable exactly if it begins in a directory. -/
theorem isPassable_iff (h : t.Ensures p.parent t' none) (hparts : p.parts ≠ []) :
    t'.IsPassable p ↔ t.get? (t.place p 0) = some .directory := by
  have hbegins := begins_parent p
  have hstart : t.place p.parent 0 = t.place p 0 := hbegins.place_eq t (Nat.zero_le _)
  constructor
  · intro hpassable
    by_cases hnil : p.parent.parts = []
    · -- Nothing has been made, so that the beginning is what it was.
      have hzero := hpassable 0 (List.length_pos_iff.2 hparts)
      rw [h.adds.place_eq] at hzero
      rcases h.adds.get?_eq (t.place p 0) with hsame | ⟨-, -, n, hn, hpos, -⟩
      · rwa [hsame] at hzero
      · rw [hnil, List.length_nil] at hn
        omega
    · rw [← hstart]
      exact h.start_eq rfl hnil
  · intro hdir n hn
    have hle : n ≤ p.parent.parts.length := by
      rw [Path.parent, List.length_dropLast]
      omega
    rw [h.adds.place_eq, ← hbegins.place_eq t hle]
    exact h.directories rfl (hstart ▸ hdir) n hle

/-- Once the directories above are there, what is left is the last one. -/
theorem ensureDir (h : t.Ensures p.parent t' none) (hparts : p.parts ≠ []) :
    t.Ensures p (t'.ensureDir p).1 (t'.ensureDir p).2 := by
  have hadds := h.adds_of_parent
  have hiff := h.isPassable_iff hparts
  by_cases hpassable : t'.IsPassable p
  · have hlast := ensures_ensureDir hpassable hparts
    refine ⟨hadds.trans (hlast.adds.mono ?_), fun _ _ => hiff.1 hpassable, fun hnone hstart => ?_,
      fun hclear => hlast.fault_eq (hadds.isClear hclear)⟩
    · rintro location ⟨n, hn, hpos, rfl⟩
      exact ⟨n, hn, hpos, hadds.place_eq p n⟩
    · intro n hn
      have hdirs := hlast.directories hnone (hpassable 0 (List.length_pos_iff.2 hparts)) n hn
      rwa [hadds.place_eq] at hdirs
  · obtain ⟨f, heq⟩ := exists_ensureDir_eq hpassable
    rw [heq]
    exact {
      adds := hadds
      start_eq := nofun
      directories := nofun
      fault_eq := fun hclear => absurd (hiff.2 hclear.start_eq) hpassable }

end Ensures

/-- A directory is made at once if there is not just something missing above it. -/
theorem ensures_ensureDir_of_makeDir (hparts : p.parts ≠ [])
    (hmake : t.makeDir p ≠ .error .notFound) :
    t.Ensures p (t.ensureDir p).1 (t.ensureDir p).2 := by
  by_cases hpassable : t.IsPassable p
  · exact ensures_ensureDir hpassable hparts
  · obtain ⟨f, heq⟩ := exists_ensureDir_eq hpassable
    rw [heq]
    exact ensures_of_not_isClear ((isPassable_or_not_isClear hmake).resolve_left hpassable) f

/-- Making the directories of a path adds no more than them and succeeds if no file is in the
way. -/
theorem ensures_ensureDirs (t : FileTree) (p : Path) :
    t.Ensures p (t.ensureDirs p).1 (t.ensureDirs p).2 := by
  obtain ⟨isAbsolute, parts⟩ := p
  rw [ensureDirs]
  generalize hreversed : parts.reverse = reversed
  rw [← List.reverse_reverse parts, hreversed]
  clear hreversed
  dsimp only
  -- The recursion goes up the path, so that the induction is on the components, innermost first.
  induction reversed with
  | nil =>
    refine ⟨.refl t, fun _ h => absurd rfl h, fun _ hstart n hn => ?_, fun _ => rfl⟩
    rw [Nat.le_zero.1 hn]
    exact hstart
  | cons part above ih =>
    rw [ensureDirsAux]
    generalize hp : (⟨isAbsolute, (part :: above).reverse⟩ : Path) = p
    have hparts : p.parts ≠ [] := by simp [← hp]
    have hparent : (⟨isAbsolute, above.reverse⟩ : Path) = p.parent := by simp [← hp, Path.parent]
    rw [hparent] at ih
    split
    · rename_i hmake
      have h := ensures_ensureDir_of_makeDir hparts (by rw [hmake]; nofun)
      rwa [ensureDir, hmake] at h
    · generalize t.ensureDirsAux isAbsolute above = made at ih ⊢
      obtain ⟨t', fault⟩ := made
      cases fault with
      | none => exact ih.ensureDir hparts
      | some f => exact ih.of_parent
    · rename_i f hne hmake
      have h := ensures_ensureDir_of_makeDir hparts (by rw [hmake]; simpa using hne)
      rwa [ensureDir, hmake] at h

end FileTree

end PercentTemplate
