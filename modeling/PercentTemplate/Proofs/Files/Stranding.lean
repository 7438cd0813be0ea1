import PercentTemplate.Proofs.Files.Write
import PercentTemplate.Proofs.Json.Emission
import PercentTemplate.Proofs.Text.Utf8

/-!
# Temporary files that are left behind

A JSON value is written like a text, but its temporary file is not taken away when that comes to a
problem. So a write that gets as far as the temporary file and not to its end strands it
(`FileTree.Strands`), and only one that does not get so far leaves all files alone.

Main statement: what a write of a JSON value leaves, and when it is which
(`FileTree.writeJson_delivers_or_strands`).
-/

namespace PercentTemplate

namespace FileTree

variable {t t' : FileTree} {o : Obstacles} {p : Path} {bytes : List UInt8}

/-- A write to a path gets a temporary file: the directories above are there or can be made, and the
system does not refuse the file. -/
structure AdmitsTemporary (t : FileTree) (o : Obstacles) (p : Path) : Prop where
  prepare_eq : (t.prepare o p).2 = none
  exists_locate : ∃ directory, (t.prepare o p).1.locate p.parent = .ok directory
  temporary_eq : o.temporary = false

/-- Beside the place of a path there is a new file with a temporary name and a beginning of the
given bytes. Apart from it the tree is as before, with new directories above. -/
def Strands (t : FileTree) (p : Path) (bytes : List UInt8) (t' : FileTree) : Prop :=
  ∃ (made : FileTree) (tries : Nat) (contents : List UInt8),
    AddsDirectories (t.IsAbove p) t made ∧ contents <+: bytes
      ∧ made.get? (t.destination p.parent ++ [temporaryNameAt p.name tries]) = none
      ∧ t' = made.set (t.destination p.parent ++ [temporaryNameAt p.name tries]) (.file contents)

theorem Strands.of_prefix {other : List UInt8} (h : t.Strands p bytes t') (hle : bytes <+: other) :
    t.Strands p other t' := by
  obtain ⟨made, tries, contents, hadds, hprefix, hfree, heq⟩ := h
  exact ⟨made, tries, contents, hadds, hprefix.trans hle, hfree, heq⟩

/-- Where the steps of a write stop. -/
inductive Halts (t : FileTree) (o : Obstacles) (p : Path) (bytes : List UInt8) : Progress → Prop
  /-- The temporary file has come to its destination. -/
  | arrived (files : FileTree) : Halts t o p bytes ⟨files, none, none⟩
  /-- There is no temporary file yet. -/
  | unopened {files : FileTree} {problem : Problem} (not_admits : ¬t.AdmitsTemporary o p)
      (adds : AddsDirectories (t.IsAbove p) t files) : Halts t o p bytes ⟨files, none, some problem⟩
  /-- There is a temporary file. -/
  | stranded {files : FileTree} {location : List String} {problem : Problem}
      (admits : t.AdmitsTemporary o p) (strands : t.Strands p bytes files) :
      Halts t o p bytes ⟨files, some location, some problem⟩

theorem halts_attempt (t : FileTree) (o : Obstacles) (p : Path) (bytes : List UInt8) :
    t.Halts o p bytes (t.attempt o p bytes) := by
  have hadds := adds_prepare t o p
  rw [attempt]
  cases hprepare : t.prepare o p with
  | mk made fault =>
    rw [hprepare] at hadds
    cases fault with
    | some problem =>
      refine .unopened (fun h => ?_) hadds
      have hnone := h.prepare_eq
      rw [hprepare] at hnone
      cases hnone
    | none =>
      dsimp only
      split
      · rename_i f hlocate
        refine .unopened (fun h => ?_) hadds
        obtain ⟨directory, hdirectory⟩ := h.exists_locate
        rw [hprepare, hlocate] at hdirectory
        cases hdirectory
      rename_i directory hlocate
      split
      · rename_i htemporary
        refine .unopened (fun h => ?_) hadds
        rw [h.temporary_eq] at htemporary
        cases htemporary
      rename_i htemporary
      have hadmits : t.AdmitsTemporary o p := by
        refine ⟨by rw [hprepare], ⟨directory, ?_⟩, Bool.eq_false_iff.2 htemporary⟩
        rw [hprepare]
        exact hlocate
      have hdirectory : directory = t.destination p.parent :=
        (locate_eq_ok_iff.1 hlocate).2.symm.trans (hadds.place_eq p.parent _)
      obtain ⟨tries, htries, hfree⟩ := made.exists_temporaryName_eq directory p.name
      rw [hdirectory] at hfree
      rw [htries, hdirectory]
      have hstrands : ∀ contents, contents <+: bytes → t.Strands p bytes
          (made.set (t.destination p.parent ++ [temporaryNameAt p.name tries]) (.file contents)) :=
        fun contents hprefix => ⟨made, tries, contents, hadds, hprefix, hfree, rfl⟩
      simp only [set_set]
      split
      · exact .stranded hadmits (hstrands _ (List.take_prefix _ _))
      split
      · exact .stranded hadmits (hstrands _ (List.prefix_refl _))
      split
      · exact .arrived _
      · exact .stranded hadmits (hstrands _ (List.prefix_refl _))

variable {payload : Json}

/-- A value whose integers can all be converted is written like the text that it has. -/
theorem writeJsonAgainst_of_isConvertible (h : payload.IsConvertible) (t : FileTree)
    (o : Obstacles) (p : Path) :
    t.writeJsonAgainst o p payload
      = ((t.attempt o p (Text.Utf8.encode payload.render)).files,
        (t.attempt o p (Text.Utf8.encode payload.render)).problem.map .write) := by
  have hwrites := Json.writes_emit payload
  have hfault := hwrites.fault_eq_none_iff.2 h
  rw [writeJsonAgainst, hfault, hwrites.chars_eq hfault]
  rfl

theorem writeJsonAgainst_free (h : payload.IsConvertible) (t : FileTree) (p : Path) :
    t.writeJsonAgainst .free p payload
      = ((t.writeJson p payload).1, (t.writeJson p payload).2.map fun f => .write (.fault f)) := by
  rw [writeJsonAgainst_of_isConvertible h, writeJson, attempt, stage, prepare, Obstacles.free]
  dsimp only
  cases t.ensureDirs p.parent with
  | mk made fault =>
    cases fault with
    | some f => rfl
    | none =>
      dsimp only [Option.map_none]
      cases made.locate p.parent with
      | error f => rfl
      | ok directory =>
        dsimp only
        rw [if_neg Bool.false_ne_true, if_neg Bool.false_ne_true, set_set]
        cases rename _ (directory ++ [made.temporaryName directory p.name]) _ p with
        | error f => rfl
        | ok t' => rfl

/-- Steps that stop at a problem leave all files alone, or a temporary file. -/
theorem Halts.adds_or_strands {w : Progress} (h : t.Halts o p bytes w)
    (hproblem : w.problem ≠ none) :
    (¬t.AdmitsTemporary o p → AddsDirectories (t.IsAbove p) t w.files)
      ∧ (t.AdmitsTemporary o p → t.Strands p bytes w.files) := by
  cases h with
  | arrived => exact absurd rfl hproblem
  | unopened not_admits adds => exact ⟨fun _ => adds, fun admits => absurd admits not_admits⟩
  | stranded admits strands => exact ⟨fun not_admits => absurd admits not_admits, fun _ => strands⟩

/-- A write of a value that comes to a problem. -/
theorem adds_or_strands {problem : JsonProblem}
    (h : t.writeJsonAgainst o p payload = (t', some problem)) :
    (¬t.AdmitsTemporary o p → AddsDirectories (t.IsAbove p) t t')
      ∧ (t.AdmitsTemporary o p → t.Strands p (Text.Utf8.encode payload.render) t') := by
  have hwrites := Json.writes_emit payload
  have hbytes : Text.Utf8.encode (String.ofList payload.emit.chars)
      <+: Text.Utf8.encode payload.render := Text.Utf8.encode_prefix hwrites.chars_prefix
  rw [writeJsonAgainst] at h
  cases hfault : payload.emit.fault with
  | none =>
    rw [hfault] at h
    obtain ⟨rfl, hproblem⟩ := Prod.mk.inj h
    obtain ⟨hadds, hstrands⟩ := (t.halts_attempt o p _).adds_or_strands fun hnone => by
      rw [hnone] at hproblem
      cases hproblem
    exact ⟨hadds, fun admits => Strands.of_prefix (hstrands admits) hbytes⟩
  | some f =>
    rw [hfault] at h
    dsimp only at h
    obtain ⟨rfl, hproblem⟩ := Prod.mk.inj h
    generalize o.contents.getD _ = room at hproblem ⊢
    -- How much room the file has says nothing about whether there is one.
    have hadmits : t.AdmitsTemporary { o with contents := some room } p ↔ t.AdmitsTemporary o p :=
      ⟨fun ⟨h, h', h''⟩ => ⟨h, h', h''⟩, fun ⟨h, h', h''⟩ => ⟨h, h', h''⟩⟩
    obtain ⟨hadds, hstrands⟩ := (t.halts_attempt { o with contents := some room } p
      _).adds_or_strands fun hnone => by
        rw [hnone] at hproblem
        cases hproblem
    rw [hadmits] at hadds hstrands
    exact ⟨hadds, fun admits => Strands.of_prefix (hstrands admits) hbytes⟩

/-- A file that is full before its end, or when it is reached, does not come to its destination. -/
theorem problem_attempt_of_contents {room : Nat} (h : o.contents = some room) (t : FileTree)
    (p : Path) (bytes : List UInt8) : (t.attempt o p bytes).problem ≠ none := by
  have hends := ends_attempt t o p bytes
  cases hends with
  | delivered isFree =>
    rw [Obstacles.eq_free_iff.1 isFree |>.2.2.1] at h
    cases h
  | undone _ problem_eq =>
    rw [problem_eq]
    nofun

theorem jsonProblem_eq_none_iff (t : FileTree) (o : Obstacles) (p : Path) (payload : Json) :
    (t.writeJsonAgainst o p payload).2 = none
      ↔ o = .free ∧ t.IsOpenTo p ∧ payload.IsConvertible := by
  by_cases hconvertible : payload.IsConvertible
  · rw [writeJsonAgainst_of_isConvertible hconvertible, Option.map_eq_none_iff]
    cases ends_attempt t o p (Text.Utf8.encode payload.render) with
    | delivered isFree isOpenTo problem_eq =>
      exact iff_of_true problem_eq ⟨isFree, isOpenTo, hconvertible⟩
    | undone not_and problem_eq =>
      exact iff_of_false (by rw [problem_eq]; nofun) fun h => not_and ⟨h.1, h.2.1⟩
  · refine iff_of_false ?_ fun h => hconvertible h.2.2
    rw [writeJsonAgainst]
    cases hfault : payload.emit.fault with
    | none => exact absurd ((Json.writes_emit payload).fault_eq_none_iff.1 hfault) hconvertible
    | some f =>
      dsimp only
      rw [Option.map_eq_none_iff]
      exact problem_attempt_of_contents rfl t p _

theorem delivers_of_jsonProblem_eq_none (h : t.writeJsonAgainst o p payload = (t', none)) :
    t.Delivers p (Text.Utf8.encode payload.render) t' := by
  obtain ⟨-, hopen, hconvertible⟩ := (jsonProblem_eq_none_iff t o p payload).1 (by rw [h])
  have hadds := adds_prepare t o p
  rw [writeJsonAgainst_of_isConvertible hconvertible] at h
  obtain ⟨hfiles, hproblem⟩ := Prod.mk.inj h
  have hhalts := t.halts_attempt o p (Text.Utf8.encode payload.render)
  have hends := t.ends_attempt o p (Text.Utf8.encode payload.render)
  generalize t.attempt o p _ = w at hfiles hproblem hhalts hends
  cases hhalts with
  | unopened | stranded => cases hproblem
  | arrived files =>
    cases hends with
    | undone _ problem_eq => cases problem_eq
    | delivered _ isOpenTo problem_eq read_eq cleared_eq =>
      exact hfiles ▸ isOpenTo.delivers hadds read_eq cleared_eq

theorem fault_writeJson_eq_none_iff (h : payload.IsConvertible) (t : FileTree) (p : Path) :
    (t.writeJson p payload).2 = none ↔ t.IsOpenTo p := by
  have hiff := jsonProblem_eq_none_iff t .free p payload
  rw [writeJsonAgainst_free h, Option.map_eq_none_iff] at hiff
  simpa [h] using hiff

theorem delivers_of_writeJson (hconvertible : payload.IsConvertible)
    (h : t.writeJson p payload = (t', none)) :
    t.Delivers p (Text.Utf8.encode payload.render) t' := by
  refine delivers_of_jsonProblem_eq_none (o := .free) ?_
  rw [writeJsonAgainst_free hconvertible, h, Option.map_none]

/-- Against whatever obstacles a JSON value is written: it succeeds exactly if nothing is refused,
the destination is open and all integers can be converted, and then the bytes of its text are in the
file that the path leads to and nothing else has changed. Otherwise a temporary file is left behind
if there was one, and if there was none no file has changed. In all cases directories above may be
new. -/
theorem writeJson_delivers_or_strands (t : FileTree) (p : Path) (payload : Json) :
    (∀ o : Obstacles,
      (∃ t', t.writeJsonAgainst o p payload = (t', none)
        ∧ t.Delivers p (Text.Utf8.encode payload.render) t')
      ∨ ∃ t' problem, t.writeJsonAgainst o p payload = (t', some problem)
        ∧ (¬t.AdmitsTemporary o p → AddsDirectories (t.IsAbove p) t t')
        ∧ (t.AdmitsTemporary o p → t.Strands p (Text.Utf8.encode payload.render) t'))
    ∧ (∀ o : Obstacles, (t.writeJsonAgainst o p payload).2 = none
        ↔ o = .free ∧ t.IsOpenTo p ∧ payload.IsConvertible)
    ∧ (payload.IsConvertible → t.writeJsonAgainst .free p payload
        = ((t.writeJson p payload).1,
          (t.writeJson p payload).2.map fun f => .write (.fault f))) := by
  refine ⟨fun o => ?_, fun o => jsonProblem_eq_none_iff t o p payload,
    fun h => writeJsonAgainst_free h t p⟩
  cases hresult : t.writeJsonAgainst o p payload with
  | mk t' problem =>
    cases problem with
    | none => exact .inl ⟨t', rfl, delivers_of_jsonProblem_eq_none hresult⟩
    | some problem =>
      obtain ⟨hadds, hstrands⟩ := adds_or_strands hresult
      exact .inr ⟨t', problem, rfl, hadds, hstrands⟩

/-- A tree with one directory. -/
def oneDirectory : FileTree := ⟨[], [(["d"], .directory)]⟩

/-- What is written onto the directory: the temporary file stays beside it. -/
theorem writeJson_oneDirectory :
    oneDirectory.writeJson (Path.ofString "d") (.arr [.int 1])
      = (⟨[], [(["d"], .directory), (["d.TMP.tmp"], .file [0x5b, 0x31, 0x5d])]⟩,
        some .isDirectory) := by
  decide +kernel

theorem isConvertible_one : (.arr [.int 1] : Json).IsConvertible :=
  .arr fun v hv => by
    obtain rfl := List.mem_singleton.1 hv
    exact .int (by decide)

/-- A value that is written onto a directory strands its temporary file. -/
theorem writeJson_delivers_or_strands_directory :
    (.arr [.int 1] : Json).IsConvertible
      ∧ oneDirectory.AdmitsTemporary .free (Path.ofString "d")
      ∧ oneDirectory.Strands (Path.ofString "d") (Text.Utf8.encode (.arr [.int 1] : Json).render)
        (oneDirectory.writeJson (Path.ofString "d") (.arr [.int 1])).1 := by
  have hadmits : oneDirectory.AdmitsTemporary .free (Path.ofString "d") :=
    ⟨by decide +kernel, ⟨[], by decide +kernel⟩, rfl⟩
  obtain ⟨houtcome, -, hfree⟩ :=
    writeJson_delivers_or_strands oneDirectory (Path.ofString "d") (.arr [.int 1])
  have heq := hfree isConvertible_one
  refine ⟨isConvertible_one, hadmits, ?_⟩
  obtain ⟨t', hwrite, -⟩ | ⟨t', problem, hwrite, -, hstrands⟩ := houtcome .free
  · rw [hwrite, writeJson_oneDirectory] at heq
    cases heq
  · rw [hwrite] at heq
    rw [← (Prod.mk.inj heq).1]
    exact hstrands hadmits

/-- A value that is written onto a directory is not delivered, and a new file stays beside it. -/
theorem writeJson_onto_directory :
    (¬∃ t', oneDirectory.writeJson (Path.ofString "d") (.arr [.int 1]) = (t', none)
      ∧ oneDirectory.Delivers (Path.ofString "d")
        (Text.Utf8.encode (.arr [.int 1] : Json).render) t')
    ∧ ¬∃ t' f, oneDirectory.writeJson (Path.ofString "d") (.arr [.int 1]) = (t', some f)
      ∧ AddsDirectories (oneDirectory.IsAbove (Path.ofString "d")) oneDirectory t' := by
  rw [writeJson_oneDirectory]
  constructor
  · rintro ⟨t', heq, -⟩
    cases heq
  · rintro ⟨t', f, heq, hadds⟩
    cases heq
    have hnew : get? ⟨[], [(["d"], .directory), (["d.TMP.tmp"], .file [0x5b, 0x31, 0x5d])]⟩
        ["d.TMP.tmp"] = some (.file [0x5b, 0x31, 0x5d]) := rfl
    cases hadds.get?_eq_file_iff.1 hnew

end FileTree

end PercentTemplate
