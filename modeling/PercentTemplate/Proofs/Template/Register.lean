import PercentTemplate.Proofs.Template.Conservation
import PercentTemplate.Proofs.Template.Course
import PercentTemplate.Proofs.Template.Pending

/-!
# The pending format as a register

The pending format depends on the history of a scan and on nothing else: directives write it, and
every attempt at a key placeholder clears it. `Lap.TriesKey` and `Lap.Sets` say by its stretch which
of the two a lap does; `Lap.Pends` says of a history of laps what is pending behind it.

Main statements: a lap writes, clears or keeps the register (`Course.registers`), and so it holds the
format of the last directive behind the last attempt at a key
(`Template.key_format_is_last_directive`).
-/

namespace PercentTemplate

open Placeholder (Attempt Ending Side)

namespace Lap

/-- The lap is an attempt at a key placeholder, whatever comes of it. -/
def TriesKey (l : Lap) : Prop := "%(".toList <+: l.chars

/-- The lap reads the directive `d`. -/
def Sets (l : Lap) (d : Directive) : Prop := (Token.directive d).IsValid ∧ d.print = l.chars

/-- Behind the laps of a history, the format is that of the last directive that is read behind the
last attempt at a key placeholder, and unset if there is none. -/
inductive Pends : List Lap → Format → Prop
  | directive (earlier : List Lap) {l : Lap} {between : List Lap} {d : Directive} (hd : l.Sets d)
    (hkey : ∀ m ∈ between, ¬m.TriesKey) (hlast : ∀ m ∈ between, ∀ d', ¬m.Sets d') :
    Pends (earlier ++ l :: between) d.format
  | unset {history : List Lap}
    (h : ∀ earlier l between d, history = earlier ++ l :: between → l.Sets d →
      ∃ m ∈ between, m.TriesKey) : Pends history Format.unset

/-- What a lap does to the pending format is determined by its stretch. -/
structure Registers (l : Lap) : Prop where
  of_triesKey : l.TriesKey → l.format = Format.unset
  of_sets {d : Directive} : l.Sets d → l.format = d.format
  of_other : ¬l.TriesKey → (∀ d, ¬l.Sets d) → l.format = l.pending

/-- The lap leaves a format of a kind and a width that a directive can ask for, on the side that the
sign in its stretch says. -/
structure Supplies (l : Lap) : Prop where
  kind_ne : l.format.kind ≠ .none
  one_le_width : 1 ≤ l.format.width
  width_le : l.format.width ≤ Placeholder.maxWidth
  side : "%<(".toList <+: l.chars ∧ (l.format.kind = .left ∨ l.format.kind = .leftTrunc)
    ∨ "%>(".toList <+: l.chars ∧ (l.format.kind = .right ∨ l.format.kind = .rightTrunc
      ∨ l.format.kind = .rightLtrunc)

variable {l : Lap} {d : Directive}

theorem Registers.supplies (hl : l.Registers) (h : l.Sets d) : l.Supplies := by
  have hformat : l.format = ⟨d.kind, d.width⟩ := hl.of_sets h
  obtain ⟨⟨hkind, hpos, hmax, -⟩, hprint⟩ := h
  refine ⟨?_, ?_, ?_, ?_⟩ <;> rw [hformat]
  · exact hkind
  · exact Int.ofNat_le.2 hpos
  · exact Int.ofNat_le.2 hmax
  · rw [← hprint]
    cases hside : d.kind with
    | none => exact absurd hside hkind
    | left | leftTrunc =>
      refine .inl ⟨?_, by simp⟩
      simp [Directive.print, hside, Side.ofKind, Side.sign]
    | right | rightTrunc | rightLtrunc =>
      refine .inr ⟨?_, by simp⟩
      simp [Directive.print, hside, Side.ofKind, Side.sign]

theorem Sets.not_triesKey (h : l.Sets d) : ¬l.TriesKey := by
  obtain ⟨-, hprint⟩ := h
  rw [TriesKey, ← hprint]
  cases hside : Side.ofKind d.kind <;> simp [Directive.print, hside, Side.sign]

end Lap

/-! What a lap does to the register. -/

namespace Placeholder

theorem Ending.ne_key {side : Side} {width : Nat} {cs rest : List Char} {p : Placeholder}
    (h : Ending side width cs p rest) : (∀ name, p ≠ key name) ∧ p ≠ malformed true := by
  cases h with
  | openWidth | plain | openWord => simp
  | word =>
    unfold Side.outcome
    split <;> simp

/-- Only attempts that begin like a key placeholder come to a key or fail as one. -/
theorem Attempt.begins_key_iff {used rest : List Char} {p : Placeholder}
    (h : Attempt used p rest) :
    "%(".toList <+: used ↔ (∃ name, p = .key name) ∨ p = .malformed true := by
  have hsign : ∀ side : Side, '(' ≠ side.sign := by
    intro side
    cases side <;> decide
  cases h with
  | alone | lineFeed | percent | key | openKey => simp
  | @stranger x _ hx =>
    have hne : '(' ≠ x := by
      rintro rfl
      exact absurd hx (by decide)
    simp [hne]
  | bare side | noWidth side | tooWide side => simp [opening, hsign side]
  | directive side _ _ _ _ hend =>
    obtain ⟨hname, hmalformed⟩ := hend.ne_key
    simp [opening, hsign side, hname, hmalformed]

/-- An attempt clears the pending format, replaces it or keeps it, as its stretch says. -/
theorem Attempt.registers_lap {used rest : List Char} {p : Placeholder} (h : Attempt used p rest)
    (offset : Nat) (pending : Format) : (p.lap offset pending used).Registers where
  of_triesKey htries := by
    rw [Lap.TriesKey, chars_lap, h.begins_key_iff] at htries
    rcases htries with ⟨name, rfl⟩ | rfl <;> rfl
  of_sets hsets := by
    obtain ⟨hvalid, hprint⟩ := hsets
    rw [chars_lap] at hprint
    have hdirective := Token.attempt_print_directive hvalid rest
    rw [hprint] at hdirective
    obtain ⟨-, rfl, -⟩ := h.unique hdirective rfl
    rfl
  of_other htries hsets := by
    rw [Lap.TriesKey, chars_lap, h.begins_key_iff, not_or, not_exists] at htries
    cases hp : p with
    | escape => rfl
    | key name => exact absurd hp (htries.1 name)
    | directive f =>
      obtain ⟨t, hvalid, hprint, hout⟩ := h.exists_token (by simp [hp])
      rw [hp] at hout
      cases t with
      | directive d => exact absurd ⟨hvalid, hprint.trans (chars_lap ..).symm⟩ (hsets d)
      | literal | lineFeed | percent | key => cases hout
    | malformed ofKey =>
      cases ofKey with
      | false => rfl
      | true => exact absurd hp htries.2

end Placeholder

theorem Lap.registers_literal (offset : Nat) (pending : Format) (c : Char) :
    (Lap.literal offset pending c).Registers where
  of_triesKey htries := by
    rw [TriesKey, chars_literal] at htries
    simp at htries
  of_sets hsets := by
    obtain ⟨x, cs, hcons, -⟩ := Directive.print_eq_cons _
    have hchars := hcons.symm.trans hsets.2
    simp at hchars
  of_other _ _ := rfl

theorem Course.registers {offset : Nat} {pending : Format} {cs rest : List Char} {laps : List Lap}
    (h : Course offset pending cs laps rest) : ∀ l ∈ laps, l.Registers := by
  induction h with
  | done => exact fun l hl => nomatch hl
  | literal _ _ ih => exact List.forall_mem_cons.2 ⟨Lap.registers_literal _ _ _, ih⟩
  | attempt ha _ ih => exact List.forall_mem_cons.2 ⟨ha.registers_lap _ _, ih⟩

/-! What is pending behind a history. -/

namespace Lap

variable {l : Lap} {f : Format} {history laps : List Lap}

theorem snoc_eq_append_cons {earlier between : List Lap} {m : Lap}
    (h : history ++ [l] = earlier ++ m :: between) :
    (between = [] ∧ l = m)
      ∨ ∃ shorter, between = shorter ++ [l] ∧ history = earlier ++ m :: shorter := by
  rcases between.eq_nil_or_concat with rfl | ⟨shorter, x, rfl⟩
  · exact .inl ⟨rfl, by simpa using (List.append_inj' h rfl).2⟩
  · rw [List.concat_eq_append, ← List.cons_append, ← List.append_assoc] at h
    obtain ⟨hhistory, hlast⟩ := List.append_inj' h rfl
    obtain rfl : l = x := by simpa using hlast
    exact .inr ⟨shorter, List.concat_eq_append, hhistory⟩

/-- One more lap leaves pending what the longer history says. -/
theorem Pends.snoc (h : Pends history l.pending) (hl : l.Registers) :
    Pends (history ++ [l]) l.format := by
  -- The lap clears the register, writes it or keeps it.
  by_cases htries : l.TriesKey
  · rw [hl.of_triesKey htries]
    refine .unset fun earlier m between d hsplit hm => ?_
    rcases snoc_eq_append_cons hsplit with ⟨rfl, rfl⟩ | ⟨shorter, rfl, -⟩
    · -- The attempt at a key would have to be a directive itself.
      exact absurd htries hm.not_triesKey
    · exact ⟨l, by simp, htries⟩
  · by_cases hsets : ∃ d, l.Sets d
    · obtain ⟨d, hd⟩ := hsets
      rw [hl.of_sets hd]
      exact .directive history hd (fun m hm => nomatch hm) (fun m hm => nomatch hm)
    · rw [not_exists] at hsets
      rw [hl.of_other htries hsets]
      generalize l.pending = f at h
      cases h with
      | directive earlier hd hkey hlast =>
        rw [List.append_assoc, List.cons_append]
        refine .directive earlier hd ?_ ?_
        · exact List.forall_mem_append.2 ⟨hkey, List.forall_mem_singleton.2 htries⟩
        · exact List.forall_mem_append.2 ⟨hlast, List.forall_mem_singleton.2 hsets⟩
      | unset h =>
        refine .unset fun earlier m between d hsplit hm => ?_
        rcases snoc_eq_append_cons hsplit with ⟨rfl, rfl⟩ | ⟨shorter, rfl, hshorter⟩
        · exact absurd hm (hsets d)
        · obtain ⟨n, hn, hkey⟩ := h earlier m shorter d hshorter hm
          exact ⟨n, List.mem_append_left [l] hn, hkey⟩

theorem Sets.unique {d d' : Directive} (h : l.Sets d) (h' : l.Sets d') : d = d' :=
  Directive.print_inj h.1 h'.1 (h.2.trans h'.2.symm)

/-- The last directive of a history is in one place. -/
theorem Sets.eq_of_last {earlier earlier' between between' : List Lap} {l' : Lap}
    (heq : earlier ++ l :: between = earlier' ++ l' :: between') {d d' : Directive} (hd : l.Sets d)
    (hlast : ∀ m ∈ between, ∀ d, ¬m.Sets d) (hd' : l'.Sets d')
    (hlast' : ∀ m ∈ between', ∀ d, ¬m.Sets d) : l = l' := by
  rcases List.append_eq_append_iff.1 heq with ⟨more, -, hmore⟩ | ⟨more, -, hmore⟩
  · cases more with
    | nil => exact (List.cons.inj hmore).1
    | cons m more =>
      have hmem : l' ∈ between := by
        rw [(List.cons.inj hmore).2]
        simp
      exact absurd hd' (hlast l' hmem d')
  · cases more with
    | nil => exact (List.cons.inj hmore).1.symm
    | cons m more =>
      have hmem : l ∈ between' := by
        rw [(List.cons.inj hmore).2]
        simp
      exact absurd hd (hlast' l hmem d)

/-- A history says of one format only that it is pending. -/
theorem Pends.iff_eq (h : Pends history f) (g : Format) : Pends history g ↔ g = f := by
  refine ⟨fun hg => ?_, fun heq => heq ▸ h⟩
  -- Both say how the history splits, so the two splits are compared.
  generalize hhistory : history = history' at hg
  cases h with
  | directive earlier hd hkey hlast =>
    cases hg with
    | directive earlier' hd' _ hlast' =>
      obtain rfl := hd.eq_of_last hhistory hlast hd' hlast'
      rw [hd.unique hd']
    | unset hnone =>
      obtain ⟨m, hm, htries⟩ := hnone _ _ _ _ hhistory.symm hd
      exact absurd htries (hkey m hm)
  | unset hnone =>
    cases hg with
    | directive earlier' hd' hkey' =>
      obtain ⟨m, hm, htries⟩ := hnone _ _ _ _ hhistory hd'
      exact absurd htries (hkey' m hm)
    | unset => rfl

theorem pends_nil : Pends [] Format.unset :=
  .unset fun _ _ _ _ hsplit _ => by simp at hsplit

theorem Follow.pends {offset : Nat} {pending : Format} {before after : List Lap}
    (h : Follow offset pending (before ++ after)) (hregisters : ∀ l ∈ before, l.Registers)
    (hpending : Pends history pending) : Pends (history ++ before) (leaves pending before) := by
  induction before generalizing offset pending history with
  | nil => simpa [leaves] using hpending
  | cons l before ih =>
    obtain ⟨-, rfl, hrest⟩ := h
    obtain ⟨hl, hbefore⟩ := List.forall_mem_cons.1 hregisters
    have hsnoc := ih hrest hbefore (hpending.snoc hl)
    rwa [List.append_assoc, List.singleton_append] at hsnoc

/-- What is pending has been left by a directive of the history. -/
theorem Pends.exists_supplies (h : Pends history f) (hregisters : ∀ l ∈ history, l.Registers) :
    f = Format.unset ∨ ∃ l ∈ history, l.Supplies ∧ l.format = f := by
  cases h with
  | @directive earlier l _ _ hd =>
    have hl : l.Registers := hregisters l (by simp)
    exact .inr ⟨l, by simp, hl.supplies hd, hl.of_sets hd⟩
  | unset => exact .inl rfl

/-- The lap that reports an event, where every lap reports one event at most. -/
theorem exists_split_events {before after : List Event} {e : Event}
    (hlength : ∀ l ∈ laps, l.events.length ≤ 1)
    (h : laps.flatMap Lap.events = before ++ e :: after) :
    ∃ earlier l later, laps = earlier ++ l :: later ∧ earlier.flatMap Lap.events = before
      ∧ l.events = [e] ∧ later.flatMap Lap.events = after := by
  induction laps generalizing before with
  | nil => simp at h
  | cons m laps ih =>
    obtain ⟨hm, hlaps⟩ := List.forall_mem_cons.1 hlength
    rw [List.flatMap_cons] at h
    match hevents : m.events, hm with
    | [], _ =>
      -- The lap has read a directive, and the event comes later.
      rw [hevents, List.nil_append] at h
      obtain ⟨earlier, l, later, rfl, hearlier, hl⟩ := ih hlaps h
      exact ⟨m :: earlier, l, later, rfl, by rw [List.flatMap_cons, hevents, hearlier]; rfl, hl⟩
    | [x], _ =>
      rw [hevents, List.singleton_append] at h
      cases before with
      | nil =>
        obtain ⟨rfl, hafter⟩ := List.cons.inj h
        exact ⟨[], m, laps, rfl, rfl, hevents, hafter⟩
      | cons y before =>
        obtain ⟨rfl, hbefore⟩ := List.cons.inj h
        obtain ⟨earlier, l, later, rfl, hearlier, hl⟩ := ih hlaps hbefore
        exact ⟨m :: earlier, l, later, rfl, by rw [List.flatMap_cons, hevents, hearlier]; rfl, hl⟩

end Lap

namespace Template

/-- The pending format is a one-shot register. A key is reported under the format of the last
directive behind the last attempt at a key before it, and under none if there is no such directive.
At every moment of every scan, also of one that comes to a fault, the same holds of what is pending
then: each lap so far has written, cleared or kept it as its stretch says, and it is unset or what a
directive can ask for. -/
theorem key_format_is_last_directive (text : String) :
    (∀ es before after name format source, events text = .ok es →
      es = before ++ .key name format source :: after →
      ∃ earlier l later, laps text = earlier ++ l :: later
        ∧ earlier.flatMap Lap.events = before ∧ l.events = [.key name format source]
        ∧ later.flatMap Lap.events = after ∧ ∀ f, Lap.Pends earlier f ↔ f = format)
    ∧ ∀ {σ β : Type} (i : Interpretation σ β) (values : Mapping) (tracing : Bool) (s : Session σ),
      Session.Reaches i (Session.start i values text tracing) s →
      ∃ history, Session.Runs i (Session.start i values text tracing) history s
        ∧ (∀ l ∈ history, l.Registers)
        ∧ (∀ f, Lap.Pends history f ↔ f = s.format)
        ∧ (s.format = Format.unset ∨ ∃ l ∈ history, l.Supplies ∧ l.format = s.format) := by
  constructor
  · intro es before after name format source h hsplit
    obtain ⟨hcourse, rfl⟩ := course_laps h
    have hfaithful : ∀ l ∈ laps text, l.IsFaithful := hcourse.isFaithful
    obtain ⟨earlier, l, later, hlaps, hbefore, hl, hafter⟩ :=
      Lap.exists_split_events (fun l hl => (hfaithful l hl).length_events_le) hsplit
    refine ⟨earlier, l, later, hlaps, hbefore, hl, hafter, ?_⟩
    have hmem : ∀ m ∈ earlier, m ∈ laps text := fun m hm => by simp [hlaps, hm]
    have hfollow := hlaps ▸ hcourse.follow
    have hpends := hfollow.pends (fun m hm => hcourse.registers m (hmem m hm)) Lap.pends_nil
    have hformat : format = l.pending :=
      ((hfaithful l (by simp [hlaps])).of_key name format source hl).2.1
    rw [List.nil_append, ← hfollow.pending_eq, ← hformat] at hpends
    exact hpends.iff_eq
  · intro σ β i values tracing s h
    obtain ⟨history, hruns, hcourse⟩ := exists_course_of_reaches h
    have hregisters := hcourse.registers
    have hpends : Lap.Pends history s.format := by
      have hfollow := hcourse.follow
      rw [← List.append_nil history] at hfollow
      have hformat : s.format = Lap.leaves Format.unset history := hruns.format_eq
      rw [hformat]
      exact hfollow.pends hregisters Lap.pends_nil
    exact ⟨history, hruns, hregisters, hpends.iff_eq, hpends.exists_supplies hregisters⟩

/-- Behind a key that fails a directive is pending over a failed directive and an escape, and it is
used up by the next key. -/
theorem key_format_is_last_directive_once :
    ∃ es, events "%<(5)%(a-%>(9,ltrunc)%<(0)%n%(b)%(c)" = .ok es
      ∧ (∃ earlier l later, laps "%<(5)%(a-%>(9,ltrunc)%<(0)%n%(b)%(c)" = earlier ++ l :: later
        ∧ l.events = [.key "b" ⟨.rightLtrunc, 9⟩ ⟨28, "%(b)"⟩]
        ∧ Lap.Pends earlier ⟨.rightLtrunc, 9⟩)
      ∧ ∃ earlier l later, laps "%<(5)%(a-%>(9,ltrunc)%<(0)%n%(b)%(c)" = earlier ++ l :: later
        ∧ l.events = [.key "c" Format.unset ⟨32, "%(c)"⟩] ∧ Lap.Pends earlier Format.unset := by
  have hevents : events "%<(5)%(a-%>(9,ltrunc)%<(0)%n%(b)%(c)"
      = .ok ([.malformed ⟨5, "%(a"⟩, .literal "-", .malformed ⟨21, "%<("⟩, .literal "0",
        .literal ")", .escape "\n"] ++ [.key "b" ⟨.rightLtrunc, 9⟩ ⟨28, "%(b)"⟩,
        .key "c" Format.unset ⟨32, "%(c)"⟩]) :=
    events_of_toOption (by decide +kernel)
  have hregister := (key_format_is_last_directive "%<(5)%(a-%>(9,ltrunc)%<(0)%n%(b)%(c)").1
  obtain ⟨earlier, l, later, hlaps, -, hl, -, hpends⟩ := hregister _ _ _ _ _ _ hevents rfl
  obtain ⟨earlier', l', later', hlaps', -, hl', -, hpends'⟩ :=
    hregister _ (_ ++ [_]) [] _ _ _ hevents (List.append_assoc _ [_] _).symm
  exact ⟨_, hevents, ⟨earlier, l, later, hlaps, hl, (hpends _).2 rfl⟩,
    ⟨earlier', l', later', hlaps', hl', (hpends' _).2 rfl⟩⟩

end Template

end PercentTemplate
