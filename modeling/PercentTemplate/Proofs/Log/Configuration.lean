import PercentTemplate.Log.Logger

/-!
# Configured logs

A log can be configured any number of times, between records and before them. Configuring it sets
the threshold and leaves the handler attached once, so what a log is depends on the last
configuration alone (`Logger.IsSetTo`).

Main statement: behind any sequence of operations the handler is attached once if there has been a
configuration, and every record is written once or, below the threshold, not at all
(`Logger.records_written_once`).
-/

namespace PercentTemplate.Logger

/-- The threshold that an operation sets. -/
def Step.threshold? : Step → Option Log.Level
  | .configure threshold => some threshold
  | .log _ => none

/-- The threshold that the last configuration among operations sets, if there is one. -/
def lastThreshold? (steps : List Step) : Option Log.Level :=
  (steps.filterMap Step.threshold?).getLast?

/-- The log behind a sequence of operations. -/
def afterAll (l : Logger) : List Step → Logger
  | [] => l
  | step :: rest => (l.perform step).2.afterAll rest

/-- What a log is if the last configuration has set a threshold, or if there has been none. -/
inductive IsSetTo : Logger → Option Log.Level → Prop
  | unconfigured : IsSetTo initial none
  | configured (threshold : Log.Level) : IsSetTo ⟨threshold, [handlerName]⟩ (some threshold)

variable {l : Logger} {set : Option Log.Level} {threshold : Log.Level}

theorem lastThreshold?_cons (step : Step) (rest : List Step) :
    lastThreshold? (step :: rest) = (lastThreshold? rest).or step.threshold? := by
  rw [lastThreshold?, lastThreshold?, List.filterMap_cons]
  cases step.threshold? with
  | none => rw [Option.or_none]
  | some threshold => rw [List.getLast?_cons, Option.or_some]

/-- A configuration attaches the handler if it is not there, and sets the threshold. -/
theorem IsSetTo.configure (h : l.IsSetTo set) (threshold : Log.Level) :
    (l.configure threshold).IsSetTo (some threshold) := by
  cases h with
  | unconfigured => exact .configured threshold
  | configured earlier =>
    have hattached : [handlerName].contains handlerName = true := by decide
    rw [Logger.configure, if_pos hattached]
    exact .configured threshold

/-- One operation leaves the threshold that it sets, or the one before it. -/
theorem IsSetTo.perform (h : l.IsSetTo set) (step : Step) :
    (l.perform step).2.IsSetTo (step.threshold?.or set) := by
  cases step with
  | configure threshold => exact h.configure threshold
  | log r => exact h

/-- A sequence of operations leaves the threshold of its last configuration, or the one before it. -/
theorem IsSetTo.afterAll (h : l.IsSetTo set) (steps : List Step) :
    (l.afterAll steps).IsSetTo ((lastThreshold? steps).or set) := by
  induction steps generalizing l set with
  | nil => exact h
  | cons step rest ih =>
    rw [lastThreshold?_cons, Option.or_assoc]
    exact ih (h.perform step)

theorem IsSetTo.handlerName_notMem (h : l.IsSetTo none) : handlerName ∉ l.handlers := by
  cases h
  exact List.not_mem_nil

theorem IsSetTo.attached_once (h : l.IsSetTo (some threshold)) :
    l.threshold = threshold ∧ l.handlers.count handlerName = 1 := by
  cases h
  exact ⟨rfl, List.count_singleton_self⟩

/-- The one handler writes one line, if the threshold lets the record through. -/
theorem IsSetTo.write_eq (h : l.IsSetTo (some threshold)) (r : Log.Record) :
    l.write r = if threshold.rank ≤ r.level.rank then
      r.level.name ++ " " ++ r.logger ++ ": " ++ r.message ++ "\n" else "" := by
  cases h
  have hline : String.join ([handlerName].map fun _ => line r) = line r := by
    rw [List.map_singleton, String.join_cons, String.join_nil, String.append_empty]
  rw [write, hline, Log.Level.admits]
  by_cases hrank : threshold.rank ≤ r.level.rank
  · simp [hrank, line]
  · simp [hrank]

theorem length_performAll (l : Logger) (steps : List Step) :
    (l.performAll steps).length = steps.length := by
  induction steps generalizing l with
  | nil => rfl
  | cons step rest ih => rw [performAll, List.length_cons, List.length_cons, ih]

/-- What an operation in a sequence does it does to the log behind those before it. -/
theorem getElem?_performAll (l : Logger) (before : List Step) (step : Step) (after : List Step) :
    (l.performAll (before ++ step :: after))[before.length]?
      = some ((l.afterAll before).perform step) := by
  induction before generalizing l with
  | nil => rfl
  | cons first before ih => exact ih (l.perform first).2

theorem afterAll_concat (l : Logger) (steps : List Step) (step : Step) :
    l.afterAll (steps ++ [step]) = ((l.afterAll steps).perform step).2 := by
  induction steps generalizing l with
  | nil => rfl
  | cons first rest ih => exact ih (l.perform first).2

/-- At every point of a sequence of configurations and records, in whatever order they come: the
handler is not attached before the first configuration, and from then on it is attached once and the
threshold is that of the last configuration. A record behind a configuration is written as one line
if it is as severe as the threshold, and a configuration and any other record write nothing. -/
theorem records_written_once (before after : List Step) (step : Step) :
    (initial.performAll (before ++ step :: after)).length = (before ++ step :: after).length
    ∧ ∃ written l, (initial.performAll (before ++ step :: after))[before.length]? = some (written, l)
      ∧ (lastThreshold? (before ++ [step]) = none → handlerName ∉ l.handlers)
      ∧ (∀ threshold, lastThreshold? (before ++ [step]) = some threshold →
        l.threshold = threshold ∧ l.handlers.count handlerName = 1)
      ∧ (∀ threshold, step = .configure threshold → written = "")
      ∧ ∀ threshold r, lastThreshold? before = some threshold → step = .log r →
        written = if threshold.rank ≤ r.level.rank then
          r.level.name ++ " " ++ r.logger ++ ": " ++ r.message ++ "\n" else "" := by
  have hbefore : (initial.afterAll before).IsSetTo (lastThreshold? before) := by
    simpa using IsSetTo.unconfigured.afterAll before
  have hbehind : ((initial.afterAll before).perform step).2.IsSetTo
      (lastThreshold? (before ++ [step])) := by
    rw [← afterAll_concat]
    simpa using IsSetTo.unconfigured.afterAll (before ++ [step])
  refine ⟨length_performAll _ _, _, _, getElem?_performAll initial before step after, ?_, ?_, ?_, ?_⟩
  · intro hnone
    rw [hnone] at hbehind
    exact hbehind.handlerName_notMem
  · intro threshold hlast
    rw [hlast] at hbehind
    exact hbehind.attached_once
  · rintro threshold rfl
    rfl
  · rintro threshold r hlast rfl
    rw [hlast] at hbefore
    exact hbefore.write_eq r

/-- The log is configured three times, and the record behind that is written once. -/
theorem records_written_once_thrice :
    ∃ l, (initial.performAll ([.configure .debug, .log ⟨"percentfmt", .warning, "w"⟩,
          .configure .critical, .configure .info] ++ .log ⟨"percentfmt.cli", .error, "e"⟩ :: []))[4]?
        = some ("ERROR percentfmt.cli: e\n", l)
      ∧ l.threshold = .info ∧ l.handlers.count handlerName = 1 := by
  obtain ⟨-, written, l, hrow, -, hconfigured, -, hwritten⟩ :=
    records_written_once [.configure .debug, .log ⟨"percentfmt", .warning, "w"⟩,
      .configure .critical, .configure .info] [] (.log ⟨"percentfmt.cli", .error, "e"⟩)
  obtain rfl := hwritten .info _ rfl rfl
  exact ⟨l, hrow, hconfigured .info rfl⟩

end PercentTemplate.Logger
