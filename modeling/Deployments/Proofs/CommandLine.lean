import Deployments.CommandLine

/-!
The level that a command line gives. It is one of those that there are to choose from, and command
lines that differ in the levels they give ask for the same, but for the level of the run.
-/

namespace Deployments.CommandLine

/-- A level that is given is one of those that there are to choose from. -/
def Given.IsChosen (g : Given) : Prop := ∀ level, g.level = some level → level ∈ levels

theorem Given.isChosen_set {g h : Given} {flag : Flag} {value : Text} (chosen : g.IsChosen)
    (set : g.set flag value = .ok h) : h.IsChosen := by
  unfold Given.set at set
  cases flag with
  | help => cases set
  | config =>
    cases set
    exact chosen
  | logLevel =>
    dsimp only at set
    split at set
    next member =>
      cases set
      intro level same
      cases same
      exact List.contains_iff_mem.mp member
    next => cases set

theorem readCluster_ne_run (letters : List Point) (path : Text) (level : Option Text) :
    readCluster letters ≠ .ok (.run path level) := by
  fun_induction readCluster letters with
  | case1 | case2 | case3 | case5 => nofun
  | case4 _ _ _ ih => exact ih

theorem isChosen_read {g : Given} (chosen : g.IsChosen) {arguments : List Argument}
    {path : Text} {level : Option Text} (asked : read g arguments = .ok (.run path level)) :
    ∀ name, level = some name → name ∈ levels := by
  fun_induction read g arguments with
  | case1 g =>
    unfold Given.request at asked
    split at asked
    · cases asked
      exact chosen
    · cases asked
  | case2 g text rest ih => exact ih chosen asked
  | case3 g rest ih => exact ih chosen asked
  | case4 g text rest ih => exact ih chosen asked
  | case5 g letters rest => exact (readCluster_ne_run letters path level asked).elim
  | case6 g flag value rest h set ih => exact ih (Given.isChosen_set chosen set) asked
  | case7 | case8 | case10 | case11 => cases asked
  | case9 g flag value rest _ h set ih => exact ih (Given.isChosen_set chosen set) asked

theorem level_of_parse {arguments : List Text} {path : Text} {level : Option Text}
    (parsed : parse arguments = .ok (.run path level)) :
    ∀ name, level = some name → name ∈ levels := by
  unfold parse at parsed
  cases classified : classifyAll arguments with
  | error e =>
    rw [classified] at parsed
    cases parsed
  | ok known =>
    rw [classified] at parsed
    have none_ : Given.start.IsChosen := nofun
    exact isChosen_read none_ parsed

/-! ### Other levels -/

/-- Arguments in which levels are put in the place of others, behind an option or together with
it. -/
inductive Relevelled : List Text → List Text → Prop
  | nil : Relevelled [] []
  | same (text : Text) {rest rest' : List Text} (later : Relevelled rest rest') :
      Relevelled (text :: rest) (text :: rest')
  | behind {option level level' : Text} {rest rest' : List Text}
      (named : classify option = .ok (.option .logLevel none)) (known : level ∈ levels)
      (known' : level' ∈ levels) (later : Relevelled rest rest') :
      Relevelled (option :: level :: rest) (option :: level' :: rest')
  | together {text text' level level' : Text} {rest rest' : List Text}
      (named : classify text = .ok (.option .logLevel (some level))) (known : level ∈ levels)
      (named' : classify text' = .ok (.option .logLevel (some level'))) (known' : level' ∈ levels)
      (later : Relevelled rest rest') : Relevelled (text :: rest) (text' :: rest')

theorem Relevelled.refl (arguments : List Text) : Relevelled arguments arguments := by
  induction arguments with
  | nil => exact .nil
  | cons text rest ih => exact .same text ih

/-- Two requests are for the same, but for the level. -/
inductive Alike : Except UsageError Request → Except UsageError Request → Prop
  | error (e e' : UsageError) : Alike (.error e) (.error e')
  | help : Alike (.ok .help) (.ok .help)
  | run (path : Text) {level level' : Option Text} (given : level.isSome = level'.isSome) :
      Alike (.ok (.run path level)) (.ok (.run path level'))

/-! ### Classified arguments -/

namespace Argument

/-- Classified arguments in which levels are put in the place of others. Behind a separator no
argument has a meaning. -/
inductive Relevelled : List Argument → List Argument → Prop
  | nil : Relevelled [] []
  | same (argument : Argument) {rest rest' : List Argument} (later : Relevelled rest rest') :
      Relevelled (argument :: rest) (argument :: rest')
  | behind {level level' : Text} {rest rest' : List Argument} (known : level ∈ levels)
      (known' : level' ∈ levels) (later : Relevelled rest rest') :
      Relevelled (.option .logLevel none :: .plain level :: rest)
        (.option .logLevel none :: .plain level' :: rest')
  | together {level level' : Text} {rest rest' : List Argument} (known : level ∈ levels)
      (known' : level' ∈ levels) (later : Relevelled rest rest') :
      Relevelled (.option .logLevel (some level) :: rest)
        (.option .logLevel (some level') :: rest')
  | separated (texts texts' : List Text) :
      Relevelled (.separator :: texts.map .plain) (.separator :: texts'.map .plain)

/-- A flag is given the same value, or is given one level in place of another. -/
def InPlace (flag : Flag) (value value' : Text) : Prop :=
  value = value' ∨ flag = .logLevel ∧ value ∈ levels ∧ value' ∈ levels

theorem Relevelled.of_together {flag : Flag} {value : Text} {rest others : List Argument}
    (relevelled : Relevelled (.option flag (some value) :: rest) others) :
    ∃ value' rest', others = .option flag (some value') :: rest' ∧ InPlace flag value value' ∧
      Relevelled rest rest' := by
  cases relevelled with
  | same _ later => exact ⟨value, _, rfl, .inl rfl, later⟩
  | together known known' later => exact ⟨_, _, rfl, .inr ⟨rfl, known, known'⟩, later⟩

theorem Relevelled.of_behind {flag : Flag} {value : Text} {rest others : List Argument}
    (relevelled : Relevelled (.option flag none :: .plain value :: rest) others) :
    ∃ value' rest', others = .option flag none :: .plain value' :: rest' ∧
      InPlace flag value value' ∧ Relevelled rest rest' := by
  cases relevelled with
  | same _ later =>
    cases later with
    | same _ later => exact ⟨value, _, rfl, .inl rfl, later⟩
  | behind known known' later => exact ⟨_, _, rfl, .inr ⟨rfl, known, known'⟩, later⟩

end Argument

theorem ne_separator_of_classify {text : Text} {argument : Argument}
    (known : classify text = .ok argument) : text ≠ separatorText := by
  rintro rfl
  have refused : (classify separatorText).toOption = none := by decide
  rw [known] at refused
  cases refused

theorem classify_level {level : Text} (known : level ∈ levels) :
    classify level = .ok (.plain level) := by
  have all : ∀ level ∈ levels, (classify level).toOption = some (.plain level) := by
    decide
  have found := all level known
  cases classified : classify level with
  | ok argument =>
    rw [classified] at found
    exact congrArg Except.ok (Option.some.inj found)
  | error e =>
    rw [classified] at found
    cases found

theorem classifyAll_cons {text : Text} {argument : Argument}
    (known : classify text = .ok argument) (rest : List Text) :
    classifyAll (text :: rest) = (classifyAll rest).map (argument :: ·) := by
  rw [classifyAll, if_neg (ne_separator_of_classify known), known]
  rfl

/-- Two classifications fail, or give arguments in which levels are put in the place of others. -/
def Classified (given given' : Except UsageError (List Argument)) : Prop :=
  (∃ e e', given = .error e ∧ given' = .error e') ∨
    ∃ known known', given = .ok known ∧ given' = .ok known' ∧ Argument.Relevelled known known'

theorem Classified.map {given given' : Except UsageError (List Argument)}
    (classified : Classified given given') {f f' : List Argument → List Argument}
    (keeps : ∀ known known', Argument.Relevelled known known' →
      Argument.Relevelled (f known) (f' known')) : Classified (given.map f) (given'.map f') := by
  rcases classified with ⟨e, e', rfl, rfl⟩ | ⟨known, known', rfl, rfl, relevelled⟩
  · exact .inl ⟨e, e', rfl, rfl⟩
  · exact .inr ⟨_, _, rfl, rfl, keeps known known' relevelled⟩

theorem Relevelled.classifyAll {arguments others : List Text}
    (relevelled : Relevelled arguments others) :
    Classified (classifyAll arguments) (classifyAll others) := by
  induction relevelled with
  | nil => exact .inr ⟨[], [], rfl, rfl, .nil⟩
  | @same text rest rest' _ ih =>
    by_cases separator : text = separatorText
    · rw [CommandLine.classifyAll, CommandLine.classifyAll, if_pos separator, if_pos separator]
      exact .inr ⟨_, _, rfl, rfl, .separated rest rest'⟩
    cases classified : classify text with
    | ok argument =>
      rw [classifyAll_cons classified, classifyAll_cons classified]
      exact ih.map fun _ _ later => .same argument later
    | error e =>
      rw [CommandLine.classifyAll, CommandLine.classifyAll, if_neg separator, if_neg separator,
        classified]
      exact .inl ⟨e, e, rfl, rfl⟩
  | behind named known known' _ ih =>
    rw [classifyAll_cons named, classifyAll_cons (classify_level known), classifyAll_cons named,
      classifyAll_cons (classify_level known')]
    rcases ih with ⟨e, e', failed, failed'⟩ | ⟨rest, rest', given, given', later⟩
    · rw [failed, failed']
      exact .inl ⟨e, e', rfl, rfl⟩
    · rw [given, given']
      exact .inr ⟨_, _, rfl, rfl, .behind known known' later⟩
  | together named known named' known' _ ih =>
    rw [classifyAll_cons named, classifyAll_cons named']
    exact ih.map fun _ _ later => .together known known' later

/-! ### Given options -/

/-- As much is given in both, but for the level. -/
structure Given.Alike (g h : Given) : Prop where
  config : g.config = h.config
  level : g.level.isSome = h.level.isSome
  extras : g.extras.isEmpty = h.extras.isEmpty

namespace Given.Alike

variable {g h : Given}

theorem extra (alike : g.Alike h) (text : Text) : (g.extra text).Alike (h.extra text) := by
  have more : ∀ g : Given, (g.extra text).extras.isEmpty = false := by simp [Given.extra]
  exact ⟨alike.config, alike.level, (more g).trans (more h).symm⟩

/-- A flag is set in both, or in none. -/
theorem set (alike : g.Alike h) {flag : Flag} {value value' : Text}
    (inPlace : Argument.InPlace flag value value') :
    (∃ e e', g.set flag value = .error e ∧ h.set flag value' = .error e') ∨
      ∃ g' h', g.set flag value = .ok g' ∧ h.set flag value' = .ok h' ∧ g'.Alike h' := by
  cases flag with
  | help => exact .inl ⟨_, _, rfl, rfl⟩
  | config =>
    obtain rfl : value = value' := inPlace.resolve_right nofun
    exact .inr ⟨_, _, rfl, rfl, rfl, alike.level, alike.extras⟩
  | logLevel =>
    have both : levels.contains value = levels.contains value' := by
      rcases inPlace with rfl | ⟨-, known, known'⟩
      · rfl
      · rw [List.contains_iff_mem.mpr known, List.contains_iff_mem.mpr known']
    by_cases known : levels.contains value' = true
    · exact .inr ⟨_, _, if_pos (both.trans known), if_pos known, alike.config, rfl, alike.extras⟩
    · exact .inl ⟨_, _, if_neg (both ▸ known), if_neg known⟩

theorem request (alike : g.Alike h) : CommandLine.Alike g.request h.request := by
  unfold Given.request
  rw [← alike.extras, ← alike.config]
  split
  · exact .run _ alike.level
  · exact .error _ _

end Given.Alike

theorem alike_readCluster (letters : List Point) :
    Alike (readCluster letters) (readCluster letters) := by
  cases asked : readCluster letters with
  | error e => exact .error e e
  | ok request =>
    cases request with
    | help => exact .help
    | run path level => exact .run path rfl

theorem read_plains {g : Given} (extras : g.extras.isEmpty = false) (texts : List Text) :
    ∃ e, read g (texts.map .plain) = .error e := by
  induction texts generalizing g with
  | nil => exact ⟨.unrecognized g.extras, by simp [read, Given.request, extras]⟩
  | cons text rest ih => exact ih (by simp [Given.extra])

theorem alike_read {g h : Given} (alike : g.Alike h) {arguments others : List Argument}
    (relevelled : Argument.Relevelled arguments others) :
    Alike (read g arguments) (read h others) := by
  fun_induction read g arguments generalizing h others with
  | case1 g =>
    cases relevelled
    exact alike.request
  | case2 g text rest ih | case4 g text rest ih =>
    cases relevelled with
    | same _ later => exact ih (alike.extra text) later
  | case3 g rest ih =>
    cases relevelled with
    | same _ later => exact ih (alike.extra separatorText) later
    | separated texts texts' =>
      obtain ⟨e, failed⟩ := read_plains (g := g.extra separatorText) (by simp [Given.extra]) texts
      obtain ⟨e', failed'⟩ :=
        read_plains (g := h.extra separatorText) (by simp [Given.extra]) texts'
      rw [failed, read, failed']
      exact .error e e'
  | case5 g letters rest =>
    cases relevelled with
    | same _ later => exact alike_readCluster letters
  | case6 g flag value rest g' set ih =>
    obtain ⟨value', rest', rfl, inPlace, later⟩ := relevelled.of_together
    rcases alike.set inPlace with ⟨e, e', failed, _⟩ | ⟨_, h', same, set', alike'⟩
    · cases set.symm.trans failed
    · cases set.symm.trans same
      rw [read, set']
      exact ih alike' later
  | case7 g flag value rest e failed =>
    obtain ⟨value', rest', rfl, inPlace, later⟩ := relevelled.of_together
    rcases alike.set inPlace with ⟨_, e', _, failed'⟩ | ⟨_, h', set, _, _⟩
    · rw [read, failed']
      exact .error e e'
    · cases failed.symm.trans set
  | case8 g rest =>
    cases relevelled with
    | same _ later => exact .help
  | case9 g flag value rest named g' set ih =>
    obtain ⟨value', rest', rfl, inPlace, later⟩ := relevelled.of_behind
    rcases alike.set inPlace with ⟨e, e', failed, _⟩ | ⟨_, h', same, set', alike'⟩
    · cases set.symm.trans failed
    · cases set.symm.trans same
      rw [read, set']
      · exact ih alike' later
      · exact named
  | case10 g flag value rest named e failed =>
    obtain ⟨value', rest', rfl, inPlace, later⟩ := relevelled.of_behind
    rcases alike.set inPlace with ⟨_, e', _, failed'⟩ | ⟨_, h', set, _, _⟩
    · rw [read, failed']
      · exact .error e e'
      · exact named
    · cases failed.symm.trans set
  | case11 g flag rest named none_ =>
    cases relevelled with
    | same _ later =>
      rw [read]
      · exact .error _ _
      · exact named
      · rintro value rest' rfl
        cases later
        exact none_ _ _ rfl
    | behind => exact (none_ _ _ rfl).elim

/-- Command lines that differ in the levels they give ask for the same, but for the level. -/
theorem Relevelled.parse {arguments others : List Text}
    (relevelled : Relevelled arguments others) : Alike (parse arguments) (parse others) := by
  unfold CommandLine.parse
  rcases relevelled.classifyAll with ⟨e, e', failed, failed'⟩ | ⟨known, known', given, given', all⟩
  · rw [failed, failed']
    exact .error e e'
  · rw [given, given']
    exact alike_read ⟨rfl, rfl, rfl⟩ all

end Deployments.CommandLine
