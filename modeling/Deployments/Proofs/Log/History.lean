import Mathlib.Data.List.DropRight
import Deployments.Proofs.Log.Dotted
import Deployments.Proofs.Log.Settings

/-!
What the history of the set-ups makes of the loggers. A logger that has been set up has the level of
the last set-up that succeeded and one handler, and passes nothing on. So a message is written once
if its level counts and a logger at or above its own has been set up, and not at all otherwise.

Whether a level counts for a logger is found when the first such message after a set-up is logged.
No level changes before the next set-up, but a logger that is made meanwhile may come in between.
So the names at or above a logger are those of an earlier time when its level is looked up, and
those of now when a handler is.
-/

namespace Deployments

open Registry

inductive Step where
  | setUp (name : Text) (level : Value)
  | log (line : LogLine)

namespace Step

def name : Step → Text
  | setUp name _ => name
  | log line => line.logger

/-- The level that the step gives to the logger of a name. -/
def level? (name : Text) : Step → Option Nat
  | setUp other level => if SameLogger other name then (levelOfValue level).toOption else none
  | log _ => none

/-- The step sets a logger up. -/
def succeeds : Step → Bool
  | setUp _ level => (levelOfValue level).toOption.isSome
  | log _ => false

/-- The step logs a message with the logger and the level of a line. -/
def logs (line : LogLine) : Step → Bool
  | setUp _ _ => false
  | log other => ownName other.logger == ownName line.logger && other.level == line.level

theorem level?_of_fails {s : Step} (fails : s.succeeds = false) (name : Text) :
    s.level? name = none := by
  cases s with
  | log line => rfl
  | setUp other level =>
    rw [succeeds, Option.isSome_eq_false_iff, Option.isNone_iff_eq_none] at fails
    rw [level?, fails]
    split <;> rfl

end Step

namespace Registry

def step (r : Registry) : Step → Registry
  | .setUp name level => (r.setUp name level).1
  | .log line => (r.log line).1

/-- The loggers after the steps, of which none had been set up before; the root may have the number
of a level. -/
def run (level : Nat) (steps : List Step) : Registry := steps.foldl step (start level)

/-- The names that the steps mention, in order. -/
def mentioned (steps : List Step) : List Text := (steps.map Step.name).foldl mention []

/-- The level of the last set-up of a name that succeeded. -/
def lastLevel? (steps : List Step) (name : Text) : Option Nat :=
  steps.reverse.findSome? (Step.level? name)

/-- The number that counts as the level of a name; the root has had one all along. -/
def number? (level : Nat) (steps : List Step) (name : Text) : Option Nat :=
  (lastLevel? steps name).or (if isRootName name then some level else none)

/-- The number that the level of a message has to reach: the first one other than zero among those
of the names. -/
def threshold (number? : Text → Option Nat) (above : List Text) : Nat :=
  ((above.filterMap number?).find? (· != 0)).getD 0

/-- The steps since the last set-up that succeeded. -/
def sinceSetUp (steps : List Step) : List Step := steps.rtakeWhile (!·.succeeds)

/-- The steps before the first message since that set-up with the logger and the level of a line:
when it was logged, it was found whether they count. -/
def untilFound (line : LogLine) (steps : List Step) : List Step :=
  steps.rdropWhile (!·.succeeds) ++ (sinceSetUp steps).takeWhile (!·.logs line)

/-- The names at or above the logger of a line when it is logged after the steps. -/
def atOrAboveAfter (steps : List Step) (line : LogLine) : List Text :=
  atOrAbove (mentioned (steps ++ [.log line])) line.logger ++ [rootName]

/-- What is written of a message if the first names are those at or above its logger when it was
found whether it counts, and the others are those when it is logged. -/
def written (level : Nat) (steps : List Step) (found now : List Text) (line : LogLine) :
    Written :=
  if line.level.number < threshold (number? level steps) found then ⟨[], none⟩
  else if ∃ name ∈ now, (lastLevel? steps name).isSome then
    ⟨[{ line with logger := ownName line.logger }], none⟩
  else ⟨[], if Level.warning.number ≤ line.level.number then some line.message else none⟩

/-! ### Steps -/

theorem Linked.step {r : Registry} (linked : r.Linked) (s : Step) :
    (r.step s).Linked ∧ (r.step s).names = mention r.names s.name := by
  have made := linked.make s.name
  have listed := names_make r s.name
  cases s with
  | log line => exact ⟨⟨made.others, made.vacant, made.above⟩, listed⟩
  | setUp name level =>
    rw [Registry.step, setUp]
    cases levelOfValue level with
    | error e => exact ⟨made, listed⟩
    | ok n =>
      obtain ⟨updated, same⟩ := made.update name (f := Logger.setUp n) fun _ => ⟨rfl, rfl, rfl⟩
      exact ⟨⟨updated.others, updated.vacant, updated.above⟩, same.trans listed⟩

theorem settings_step (r : Registry) (s : Step) (name : Text) :
    (r.step s).settings name =
      match s.level? name with
      | some n => .ofLevel? (some n)
      | none => r.settings name := by
  cases s with
  | log line => exact settings_make r line.logger name
  | setUp other level => exact settings_setUp r other level name

theorem run_append (level : Nat) (steps : List Step) (s : Step) :
    run level (steps ++ [s]) = (run level steps).step s := by
  rw [run, List.foldl_append]
  rfl

theorem mentioned_append (steps : List Step) (s : Step) :
    mentioned (steps ++ [s]) = mention (mentioned steps) s.name := by
  rw [mentioned, List.map_append, List.foldl_append]
  rfl

theorem linked_run (level : Nat) (steps : List Step) :
    (run level steps).Linked ∧ (run level steps).names = mentioned steps := by
  induction steps using List.reverseRecOn with
  | nil => exact ⟨linked_start level, rfl⟩
  | append_singleton steps s ih =>
    obtain ⟨linked, listed⟩ := ih
    obtain ⟨next_, same⟩ := linked.step s
    rw [run_append]
    exact ⟨next_, by rw [same, listed, mentioned_append]⟩

theorem lastLevel?_append (steps : List Step) (s : Step) (name : Text) :
    lastLevel? (steps ++ [s]) name = (s.level? name).or (lastLevel? steps name) := by
  rw [lastLevel?, List.reverse_append]
  cases given : s.level? name <;> simp [lastLevel?, given]

/-- The settings of the logger of a name that has not been set up; the root has a level. -/
def unsetOf (level : Nat) (name : Text) : Settings :=
  ⟨if isRootName name then level else 0, 0, true⟩

theorem settings_run (level : Nat) (steps : List Step) (name : Text) :
    (run level steps).settings name =
      match lastLevel? steps name with
      | some n => .ofLevel? (some n)
      | none => unsetOf level name := by
  induction steps using List.reverseRecOn with
  | nil =>
    rw [settings, lastLevel?, unsetOf]
    split <;> rfl
  | append_singleton steps s ih =>
    rw [run_append, settings_step, ih, lastLevel?_append]
    cases given : s.level? name <;> rfl

/-! ### Messages -/

theorem level_settings_run (level : Nat) (steps : List Step) (name : Text) :
    ((run level steps).settings name).level = (number? level steps name).getD 0 := by
  rw [settings_run, number?]
  cases given : lastLevel? steps name with
  | some n => rfl
  | none => by_cases root : isRootName name = true <;> simp [unsetOf, root]

theorem reached_eq {r : Registry} {above : List Text} {ls : List Logger} {level : Nat}
    {steps : List Step} (history : r.settings = (run level steps).settings)
    (same : ls.map Logger.settings = above.map r.settings) :
    Logger.reached ls = if ∃ name ∈ above, (lastLevel? steps name).isSome then 1 else 0 := by
  induction above generalizing ls with
  | nil =>
    obtain rfl := List.map_eq_nil_iff.mp same
    rfl
  | cons name rest ih =>
    obtain ⟨l, others, rfl, first, later⟩ := List.map_eq_cons_iff.mp same
    have behind := ih later
    rw [history, settings_run] at first
    cases given : lastLevel? steps name with
    | some n =>
      rw [given] at first
      obtain ⟨_, handlers, propagates⟩ : l.level = n ∧ l.handlers = 1 ∧ l.propagates = false := by
        simpa [Logger.settings, Settings.ofLevel?] using first
      simp [Logger.reached, handlers, propagates, given]
    | none =>
      rw [given] at first
      obtain ⟨_, handlers, propagates⟩ :
          l.level = (unsetOf level name).level ∧ l.handlers = 0 ∧ l.propagates = true := by
        simpa [Logger.settings, unsetOf] using first
      simp [Logger.reached, handlers, propagates, given, behind]

theorem threshold_cons (number? : Text → Option Nat) (name : Text) (rest : List Text) :
    threshold number? (name :: rest) =
      if (number? name).getD 0 = 0 then threshold number? rest else (number? name).getD 0 := by
  unfold threshold
  cases given : number? name with
  | none => simp [given]
  | some n => by_cases zero : n = 0 <;> simp [given, zero]

theorem threshold_eq {r : Registry} {above : List Text} {ls : List Logger} {level : Nat}
    {steps : List Step} (history : r.settings = (run level steps).settings)
    (same : ls.map Logger.settings = above.map r.settings) :
    ((ls.find? (·.level != 0)).map (·.level)).getD 0 = threshold (number? level steps) above := by
  induction above generalizing ls with
  | nil =>
    obtain rfl := List.map_eq_nil_iff.mp same
    rfl
  | cons name rest ih =>
    obtain ⟨l, others, rfl, first, later⟩ := List.map_eq_cons_iff.mp same
    have own : l.level = (number? level steps name).getD 0 := by
      rw [← level_settings_run, ← history]
      exact congrArg Settings.level first
    rw [threshold_cons, ← ih later, ← own]
    by_cases zero : l.level = 0
    · simp [zero]
    · simp [zero]

theorem mem_names_of_mem_atOrAbove {made : List Text} {name other : Text}
    (known : isRootName name = true ∨ name ∈ made) (member : other ∈ atOrAbove made name) :
    other ∈ made := by
  unfold atOrAbove at member
  split at member
  next => cases member
  next root =>
    rcases fronts_of_mem_lineage member with rfl | ⟨_, there⟩
    · exact known.resolve_left root
    · exact there

theorem Linked.map_settings_chain {r : Registry} (linked : r.Linked) {name : Text}
    (known : isRootName name = true ∨ name ∈ r.names) :
    (r.chain name).map Logger.settings =
      (atOrAbove r.names name ++ [rootName]).map r.settings := by
  have each : ∀ above : List Text, (∀ name ∈ above, name ∈ r.names) →
      (above.filterMap r.find?).map Logger.settings = above.map r.settings := by
    intro above all
    induction above with
    | nil => rfl
    | cons first rest ih =>
      obtain ⟨member, later⟩ := List.forall_mem_cons.mp all
      obtain ⟨l, found, _⟩ := exists_find?_of_mem member
      rw [List.filterMap_cons, found, List.map_cons, List.map_cons,
        settings_of_find? (linked.others first member) found, ih later]
  rw [linked.chain_eq known, List.map_append, List.map_append,
    each _ fun _ => mem_names_of_mem_atOrAbove known]
  rfl

/-- The loggers that a line goes along, with the settings that the history gave them. -/
theorem map_settings_chain_run (level : Nat) (steps : List Step) (line : LogLine) :
    (((run level steps).make line.logger).chain line.logger).map Logger.settings =
      (atOrAboveAfter steps line).map ((run level steps).make line.logger).settings := by
  obtain ⟨linked, listed⟩ := linked_run level steps
  have known := mem_mention (run level steps).names line.logger
  rw [← names_make] at known
  rw [(linked.make line.logger).map_settings_chain known, atOrAboveAfter, names_make, listed,
    mentioned_append]
  rfl

theorem history_make (level : Nat) (steps : List Step) (name : Text) :
    ((run level steps).make name).settings = (run level steps).settings :=
  funext fun other => settings_make (run level steps) name other

theorem levelOf_run (level : Nat) (steps : List Step) (line : LogLine) :
    ((run level steps).make line.logger).levelOf line.logger =
      threshold (number? level steps) (atOrAboveAfter steps line) :=
  threshold_eq (history_make level steps line.logger) (map_settings_chain_run level steps line)

theorem reached_run (level : Nat) (steps : List Step) (line : LogLine) :
    Logger.reached (((run level steps).make line.logger).chain line.logger) =
      if ∃ name ∈ atOrAboveAfter steps line, (lastLevel? steps name).isSome then 1 else 0 :=
  reached_eq (history_make level steps line.logger) (map_settings_chain_run level steps line)

/-! ### What is remembered -/

theorem found_make (r : Registry) (name : Text) : (r.make name).found = r.found := by
  unfold make
  split <;> rfl

theorem sameLogger_of_ownName {name other : Text} (same : ownName name = ownName other) :
    SameLogger name other := by
  have root : isRootName rootName = true := rfl
  unfold ownName at same
  by_cases first : isRootName name = true <;> by_cases second : isRootName other = true
  · exact .inr ⟨first, second⟩
  · rw [if_pos first, if_neg second] at same
    exact absurd (same ▸ root) second
  · rw [if_neg first, if_pos second] at same
    exact absurd (same ▸ root) first
  · rw [if_neg first, if_neg second] at same
    exact .inl same

theorem isEnabled_congr {r : Registry} {line other : LogLine}
    (logger : ownName other.logger = ownName line.logger) (level : other.level = line.level) :
    (r.make other.logger).isEnabled other = (r.make line.logger).isEnabled line := by
  rcases sameLogger_of_ownName logger with same | ⟨first, second⟩
  · rw [isEnabled, isEnabled, same, level]
  · have chains : r.chain other.logger = r.chain line.logger := by simp [chain, first, second]
    rw [make_of_known (.inl first), make_of_known (.inl second), isEnabled, isEnabled, logger,
      level, levelOf, levelOf, chains]

section Found

variable {steps : List Step} {s : Step} {line : LogLine}

theorem sinceSetUp_append_of_fails (fails : s.succeeds = false) :
    sinceSetUp (steps ++ [s]) = sinceSetUp steps ++ [s] :=
  List.rtakeWhile_concat_pos _ _ _ (by simp [fails])

theorem sinceSetUp_append_of_succeeds (succeeds : s.succeeds = true) :
    sinceSetUp (steps ++ [s]) = [] :=
  List.rtakeWhile_concat_neg _ _ _ (by simp [succeeds])

theorem number?_append_of_fails (level : Nat) (fails : s.succeeds = false) :
    number? level (steps ++ [s]) = number? level steps := by
  funext name
  rw [number?, number?, lastLevel?_append, s.level?_of_fails fails, Option.none_or]

/-- A step after the first message changes nothing, and neither does that message itself. -/
theorem untilFound_append (fails : s.succeeds = false)
    (logged : (sinceSetUp (steps ++ [s])).any (Step.logs line) = true) :
    untilFound line (steps ++ [s]) = untilFound line steps := by
  rw [sinceSetUp_append_of_fails fails] at logged
  rw [untilFound, untilFound, sinceSetUp_append_of_fails fails,
    List.rdropWhile_concat_pos _ _ _ (by simp [fails]), List.takeWhile_append]
  congr 1
  split
  next all =>
    have none_ := List.takeWhile_eq_self_iff.mp (List.takeWhile_prefix _ |>.eq_of_length all)
    have last : s.logs line = true := by
      simp only [List.any_append, Bool.or_eq_true, List.any_eq_true] at logged
      rcases logged with ⟨s', member, logs⟩ | ⟨s', member, logs⟩
      · simpa [logs] using none_ s' member
      · rwa [← List.mem_singleton.mp member]
    rw [List.takeWhile_cons_of_neg (by simp [last]), List.append_nil]
    exact (List.takeWhile_eq_self_iff.mpr none_).symm
  next => rfl

theorem untilFound_of_unlogged
    (unlogged : (sinceSetUp steps).any (Step.logs line) = false) :
    untilFound line steps = steps := by
  have all : (sinceSetUp steps).takeWhile (!·.logs line) = sinceSetUp steps := by
    rw [List.takeWhile_eq_self_iff]
    intro s member
    simpa using List.any_eq_false.mp unlogged s member
  rw [untilFound, all, sinceSetUp, List.rdropWhile_append_rtakeWhile]

end Found

/-- A line counts that is logged after the steps. -/
def IsCounted (level : Nat) (steps : List Step) (line : LogLine) : Prop :=
  threshold (number? level steps) (atOrAboveAfter (untilFound line steps) line) ≤ line.level.number

instance (level : Nat) (steps : List Step) (line : LogLine) :
    Decidable (IsCounted level steps line) :=
  inferInstanceAs (Decidable (_ ≤ _))

/-- What is remembered after the steps of lines with the logger and the level of one. -/
def remembered (level : Nat) (steps : List Step) (line : LogLine) : Option Bool :=
  if (sinceSetUp steps).any (Step.logs line) then some (decide (IsCounted level steps line))
  else none

theorem isEnabled_of_lookup {level : Nat} {steps : List Step} {line : LogLine}
    (known : (run level steps).found.lookup (ownName line.logger, line.level) =
      remembered level steps line) :
    ((run level steps).make line.logger).isEnabled line = decide (IsCounted level steps line) := by
  rw [isEnabled, found_make, known, remembered, levelOf_run]
  split
  next => rfl
  next unlogged =>
    refine decide_eq_decide.mpr ?_
    rw [IsCounted, untilFound_of_unlogged (Bool.eq_false_iff.mpr unlogged)]

theorem isCounted_append {level : Nat} {steps : List Step} {s : Step} {line : LogLine}
    (fails : s.succeeds = false)
    (logged : (sinceSetUp (steps ++ [s])).any (Step.logs line) = true) :
    IsCounted level (steps ++ [s]) line ↔ IsCounted level steps line := by
  rw [IsCounted, IsCounted, number?_append_of_fails level fails, untilFound_append fails logged]

theorem remembered_append {level : Nat} {steps : List Step} {s : Step} {line : LogLine}
    (fails : s.succeeds = false) (other : s.logs line = false) :
    remembered level (steps ++ [s]) line = remembered level steps line := by
  have same : (sinceSetUp (steps ++ [s])).any (Step.logs line) =
      (sinceSetUp steps).any (Step.logs line) := by
    rw [sinceSetUp_append_of_fails fails]
    simp [other]
  rw [remembered, remembered, same]
  split
  next logged => simp only [isCounted_append fails (same.trans logged)]
  next => rfl

/-- What is remembered is what was found when the first such message was logged. -/
theorem lookup_run (level : Nat) (steps : List Step) (line : LogLine) :
    (run level steps).found.lookup (ownName line.logger, line.level) =
      remembered level steps line := by
  induction steps using List.reverseRecOn generalizing line with
  | nil => rfl
  | append_singleton steps s ih =>
    rw [run_append]
    cases s with
    | setUp name given =>
      rw [Registry.step, setUp]
      cases parsed : levelOfValue given with
      | error e =>
        have fails : (Step.setUp name given).succeeds = false := by
          rw [Step.succeeds, parsed]
          rfl
        rw [remembered_append fails rfl, ← ih]
        exact congrArg _ (found_make _ name)
      | ok n =>
        have succeeds : (Step.setUp name given).succeeds = true := by
          rw [Step.succeeds, parsed]
          rfl
        rw [remembered, sinceSetUp_append_of_succeeds succeeds]
        rfl
    | log other =>
      have fails : (Step.log other).succeeds = false := rfl
      show (((ownName other.logger, other.level), _) :: _ : List _).lookup _ = _
      by_cases same : (Step.log other).logs line = true
      · obtain ⟨logger, level_⟩ :
            ownName other.logger = ownName line.logger ∧ other.level = line.level := by
          simpa [Step.logs] using same
        have logged : (sinceSetUp (steps ++ [.log other])).any (Step.logs line) = true := by
          rw [sinceSetUp_append_of_fails fails]
          simp [same]
        rw [isEnabled_congr logger level_, isEnabled_of_lookup (ih line), logger, level_,
          List.lookup_cons_self, remembered, if_pos logged]
        simp only [isCounted_append fails logged]
      · have apart : ((ownName line.logger, line.level) == (ownName other.logger, other.level)) =
            false := by
          rw [beq_eq_false_iff_ne]
          intro equal
          obtain ⟨logger, level_⟩ := Prod.mk.inj equal
          exact same (by simp [Step.logs, logger, level_])
        rw [remembered_append fails (Bool.eq_false_iff.mpr same), ← ih, List.lookup_cons, apart,
          found_make]

theorem log_run (level : Nat) (steps : List Step) (line : LogLine) :
    ((run level steps).log line).2 =
      written level steps (atOrAboveAfter (untilFound line steps) line)
        (atOrAboveAfter steps line) line := by
  have enabled := isEnabled_of_lookup (lookup_run level steps line)
  have reached := reached_run level steps line
  rw [log, lines, bare, enabled, reached, written]
  by_cases counted : IsCounted level steps line
  · rw [if_neg (Nat.not_lt.mpr counted), if_pos (decide_eq_true counted)]
    by_cases handled : ∃ name ∈ atOrAboveAfter steps line, (lastLevel? steps name).isSome = true
    · rw [if_pos handled, if_pos handled]
      simp
    · rw [if_neg handled, if_neg handled]
      simp [counted]
  · rw [if_pos (Nat.not_le.mp counted)]
    simp [counted]

/-! ### Names whose dots tell what is above them -/

theorem mem_mentioned_append {steps : List Step} {name : Text} (member : name ∈ mentioned steps)
    (s : Step) : name ∈ mentioned (steps ++ [s]) := by
  rw [mentioned_append]
  rcases known_or_new (mentioned steps) s.name with known | ⟨other, new⟩
  · rwa [mention_of_known known]
  · rw [mention_of_new other new]
    exact List.mem_append_left _ member

theorem isRootName_of_mem_mentioned {steps : List Step} {name : Text}
    (member : name ∈ mentioned steps) : isRootName name = false := by
  obtain ⟨linked, listed⟩ := linked_run 0 steps
  rw [← listed] at member
  exact linked.others name member

theorem lastLevel?_of_unmentioned {steps : List Step} {name : Text}
    (other : isRootName name = false) (new : name ∉ mentioned steps) :
    lastLevel? steps name = none := by
  have listed := (linked_run 0 steps).2
  have absent : (run 0 steps).find? name = none := find?_eq_none_iff.mpr (listed ▸ new)
  have unset := settings_run 0 steps name
  rw [settings, if_neg (by simp [other]), absent] at unset
  cases given : lastLevel? steps name with
  | none => rfl
  | some n =>
    rw [given] at unset
    cases unset

/-- No level changes after it was found whether a line counts. -/
theorem lastLevel?_untilFound (line : LogLine) (steps : List Step) :
    lastLevel? (untilFound line steps) = lastLevel? steps := by
  induction steps using List.reverseRecOn with
  | nil => rfl
  | append_singleton steps s ih =>
    by_cases logged : (sinceSetUp (steps ++ [s])).any (Step.logs line) = true
    · have fails : s.succeeds = false := by
        rw [← Bool.not_eq_true]
        intro succeeds
        rw [sinceSetUp_append_of_succeeds succeeds] at logged
        cases logged
      rw [untilFound_append fails logged, ih]
      funext name
      rw [lastLevel?_append, s.level?_of_fails fails, Option.none_or]
    · rw [untilFound_of_unlogged (Bool.eq_false_iff.mpr logged)]

theorem shown_of_isPlain {steps : List Step} {name : Text} (plain : IsPlain name) {front : Text}
    (above : front ∈ namesAbove name) (member : front ∈ mentioned steps) :
    beginsRoot front = false := by
  rw [← Bool.not_eq_true]
  intro begins
  have other := isRootName_of_mem_mentioned member
  have fronts := fronts_of_mem_namesAbove above
  have few := mem_of_beginsRoot begins
  simp only [List.mem_cons, List.not_mem_nil, or_false] at few
  rcases few with rfl | rfl | rfl | rfl | rfl
  · cases other
  · exact plain.shown _ (by simp) fronts
  · exact plain.shown _ (by simp) fronts
  · exact plain.shown _ (by simp) fronts
  · cases other

/-- The names that count above a plain one are those in front of its dots, as far as anything was
done to them. -/
theorem filterMap_atOrAboveAfter {β : Type} {f : Text → Option β} {steps : List Step}
    {line : LogLine} (plain : IsPlain line.logger)
    (unmentioned : ∀ name, isRootName name = false → name ∉ mentioned steps → f name = none) :
    (atOrAboveAfter steps line).filterMap f = (dottedAbove line.logger).filterMap f := by
  rw [atOrAboveAfter, dottedAbove, List.filterMap_append, List.filterMap_append]
  congr 1
  by_cases root : isRootName line.logger = true
  · have few : line.logger = "" ∨ line.logger = rootName := by simpa [isRootName] using root
    rw [atOrAbove, if_pos root]
    rcases few with same | same <;> rw [same] <;> rfl
  · rw [atOrAbove, if_neg root, lineage_eq plain.single fun front => shown_of_isPlain plain,
      namesAbove_eq plain.single, List.filter_cons_of_pos (by simpa using root),
      List.filterMap_cons, List.filterMap_cons, List.filterMap_filter, List.filterMap_filter]
    have same : ∀ front ∈ dotted line.logger,
        (if (mentioned (steps ++ [.log line])).contains front then f front else none) =
          if !isRootName front then f front else none := by
      intro front _
      by_cases member : front ∈ mentioned (steps ++ [.log line])
      · rw [if_pos (List.contains_iff_mem.mpr member), isRootName_of_mem_mentioned member]
        rfl
      · rw [if_neg (mt List.contains_iff_mem.mp member)]
        cases other : isRootName front with
        | true => rfl
        | false =>
          have new : front ∉ mentioned steps := fun early =>
            member (mem_mentioned_append early (.log line))
          rw [unmentioned front other new]
          rfl
    rw [List.filterMap_congr same]

theorem written_of_isPlain (level : Nat) (steps : List Step) {line : LogLine}
    (plain : IsPlain line.logger) :
    written level steps (atOrAboveAfter (untilFound line steps) line)
        (atOrAboveAfter steps line) line =
      written level steps (dottedAbove line.logger) (dottedAbove line.logger) line := by
  have found : (atOrAboveAfter (untilFound line steps) line).filterMap (number? level steps) =
      (dottedAbove line.logger).filterMap (number? level steps) := by
    refine filterMap_atOrAboveAfter plain fun name other new => ?_
    rw [number?, ← lastLevel?_untilFound line, lastLevel?_of_unmentioned other new, other]
    rfl
  have now : (atOrAboveAfter steps line).filterMap (lastLevel? steps) =
      (dottedAbove line.logger).filterMap (lastLevel? steps) :=
    filterMap_atOrAboveAfter plain fun name => lastLevel?_of_unmentioned
  have exists_iff (names : List Text) :
      (∃ name ∈ names, (lastLevel? steps name).isSome) ↔
        names.filterMap (lastLevel? steps) ≠ [] := by
    simp [List.filterMap_eq_nil_iff, Option.isSome_iff_ne_none]
  unfold written threshold
  simp only [found, exists_iff, now]

/-- A set-up that fails changes no settings; loggers that have been set up have one handler each and
pass nothing on; and a message is written once if its level counts and a logger at or above its own
has been set up, and not at all otherwise, save that without a handler the bare text of a warning is
written. -/
theorem settings_and_lines_of_run (level : Nat) (steps : List Step) :
    (∀ name given e, ((run level steps).setUp name given).2 = .error e →
        ∀ other, ((run level steps).setUp name given).1.settings other =
          (run level steps).settings other) ∧
      (∀ name, (run level steps).settings name = match lastLevel? steps name with
        | some given => ⟨given, 1, false⟩
        | none => ⟨if isRootName name then level else 0, 0, true⟩) ∧
      ∀ line,
        ((run level steps).log line).2 =
            written level steps (atOrAboveAfter (untilFound line steps) line)
              (atOrAboveAfter steps line) line ∧
          (IsPlain line.logger →
            ((run level steps).log line).2 =
              written level steps (dottedAbove line.logger) (dottedAbove line.logger) line) := by
  refine ⟨fun name given e failed => settings_of_failed failed, fun name => ?_,
    fun line => ⟨log_run level steps line, fun plain => ?_⟩⟩
  · rw [settings_run]
    cases lastLevel? steps name <;> rfl
  · rw [log_run, written_of_isPlain level steps plain]

/-- Set-ups of loggers in one another, one of them twice. -/
def nestedSetUps : List Step :=
  [.setUp "a" (.text "INFO"), .log ⟨"a.b.c", .info, "early"⟩, .setUp "a.b" (.text "ERROR"),
    .setUp "a.b" (.text "debug")]

theorem lines_of_nested :
    ((run 0 nestedSetUps).setUp "a" (.text "LOUD")).1.settings "a" = ⟨20, 1, false⟩ ∧
      IsPlain "a.b.c" ∧
        ((run 0 nestedSetUps).log ⟨"a.b.c", .debug, "late"⟩).2 =
          ⟨[⟨"a.b.c", .debug, "late"⟩], none⟩ := by
  obtain ⟨failed, settings, lines⟩ := settings_and_lines_of_run 0 nestedSetUps
  have plain : IsPlain "a.b.c" := ⟨by decide, by decide⟩
  refine ⟨?_, plain, ?_⟩
  · have none_ : ((run 0 nestedSetUps).setUp "a" (.text "LOUD")).2.toOption = none := by
      decide
    cases answer : ((run 0 nestedSetUps).setUp "a" (.text "LOUD")).2 with
    | error e =>
      rw [failed _ _ _ answer, settings]
      decide
    | ok l =>
      rw [answer] at none_
      cases none_
  · rw [(lines _).2 plain]
    decide

/-- A logger is not linked to one that is made later if the name of the root begins with that one's,
and not to one in front of the first of two dots; and a logger that is put in between after a
message was logged takes no part in whether the next one counts. -/
theorem log_ne_written_by_dots :
    let early : LogLine := ⟨"roo.x", .info, "early"⟩
    let late : LogLine := ⟨"roo.x", .info, "late"⟩
    let steps : List Step := [.log early, .setUp "roo" (.text "INFO")]
    let doubled : LogLine := ⟨"a..b", .info, "late"⟩
    let single : List Step := [.setUp "a" (.text "INFO")]
    let stale : List Step :=
      [.setUp "a" (.text "ERROR"), .log doubled, .log ⟨"a.", .info, "between"⟩]
    ((((run 0 steps).log late).2.lines = [] ∧
        (written 0 steps (dottedAbove late.logger) (dottedAbove late.logger) late).lines = [late]) ∧
      ((run 0 single).log doubled).2.lines = [] ∧
        (written 0 single (dottedAbove doubled.logger) (dottedAbove doubled.logger) doubled).lines =
          [doubled]) ∧
      ((run 0 stale).log doubled).2.lines = [doubled] ∧
        (written 0 stale (atOrAboveAfter stale doubled) (atOrAboveAfter stale doubled)
          doubled).lines = [] := by
  decide +kernel

end Registry

end Deployments
