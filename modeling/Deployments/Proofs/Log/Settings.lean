import Deployments.Proofs.Log.Links

/-!
What is done to the settings of loggers. Making a logger leaves those of all loggers as they were,
and so does a set-up that fails; one that succeeds changes those of its own logger alone.
-/

namespace Deployments

open Registry

/-- What setting a logger up changes. -/
structure Settings where
  level : Nat
  handlers : Nat
  propagates : Bool
  deriving DecidableEq, Repr

namespace Settings

def unset : Settings := ⟨0, 0, true⟩

/-- The settings of a logger whose last set-up that succeeded, if any, had the level. -/
def ofLevel? : Option Nat → Settings
  | some level => ⟨level, 1, false⟩
  | none => unset

@[simp] theorem level_ofLevel? (given : Option Nat) : (ofLevel? given).level = given.getD 0 := by
  cases given <;> rfl

end Settings

def Logger.settings (l : Logger) : Settings := ⟨l.level, l.handlers, l.propagates⟩

namespace Registry

/-- The settings of the logger of a name, also before it is made. -/
def settings (r : Registry) (name : Text) : Settings :=
  if isRootName name then r.root.settings
  else ((r.find? name).map Logger.settings).getD .unset

/-- Two names are those of one logger. -/
def SameLogger (name other : Text) : Prop :=
  name = other ∨ isRootName name = true ∧ isRootName other = true

instance (name other : Text) : Decidable (SameLogger name other) :=
  inferInstanceAs (Decidable (_ ∨ _))

theorem find?_map {g : Logger → Logger} (keeps : ∀ l, (g l).name = l.name) (ls : List Logger)
    (name : Text) :
    (ls.map g).find? (·.name == name) = (ls.find? (·.name == name)).map g := by
  have same : ((·.name == name) ∘ g : Logger → Bool) = (·.name == name) := by
    funext l
    rw [Function.comp_apply, keeps]
  rw [List.find?_map, same]

theorem settings_make (r : Registry) (name other : Text) :
    (r.make name).settings other = r.settings other := by
  rcases known_or_new r.names name with known | ⟨root, new⟩
  · rw [make_of_known known]
  · have kept : Logger.settings ∘ interpose name = Logger.settings := by
      funext l
      dsimp only [Function.comp_apply, interpose]
      split <;> rfl
    rw [make_of_new root new, settings, settings]
    split
    next => rfl
    next =>
      simp only [find?, List.find?_append, find?_map (interpose_name name)]
      cases found : r.loggers.find? (·.name == other) with
      | some l => exact congrFun kept l
      | none =>
        rw [List.find?_cons, List.find?_nil, Option.map_none, Option.none_or]
        split <;> rfl

theorem mem_mention (made : List Text) (name : Text) :
    isRootName name = true ∨ name ∈ mention made name := by
  rcases known_or_new made name with known | ⟨root, new⟩
  · rwa [mention_of_known known]
  · rw [mention_of_new root new]
    exact .inr (List.mem_append_right _ (List.mem_singleton_self _))

theorem exists_find?_of_mem {r : Registry} {name : Text} (member : name ∈ r.names) :
    ∃ l, r.find? name = some l ∧ l.name = name := by
  obtain ⟨l, found⟩ := Option.isSome_iff_exists.mp (isSome_find?_iff.mpr member)
  exact ⟨l, found, by simpa using List.find?_some found⟩

theorem settings_of_find? {r : Registry} {name : Text} {l : Logger}
    (other : isRootName name = false) (found : r.find? name = some l) :
    r.settings name = l.settings := by
  simp [settings, other, found]

theorem settings_update {r : Registry} {name : Text} (n : Nat)
    (known : isRootName name = true ∨ name ∈ r.names) (other : Text) :
    (r.update name (Logger.setUp n)).settings other =
      if SameLogger name other then .ofLevel? (some n) else r.settings other := by
  by_cases own : isRootName name = true
  · rw [update, if_pos own]
    by_cases root : isRootName other = true
    · rw [settings, if_pos root, if_pos (.inr ⟨own, root⟩)]
      rfl
    · have apart : ¬ SameLogger name other := by
        rintro (rfl | ⟨_, back⟩)
        · exact root own
        · exact root back
      rw [settings, if_neg root, if_neg apart, settings, if_neg root]
      rfl
  · let set (l : Logger) : Logger := if l.name == name then l.setUp n else l
    have keeps (l : Logger) : (set l).name = l.name := by
      dsimp only [set]
      split <;> rfl
    have found : (r.update name (Logger.setUp n)).find? other = (r.find? other).map set := by
      rw [update, if_neg own]
      exact find?_map keeps r.loggers other
    have root : (r.update name (Logger.setUp n)).root = r.root := by rw [update, if_neg own]
    rw [settings, root, found]
    by_cases same : name = other
    · subst same
      obtain ⟨l, there, named_⟩ := exists_find?_of_mem (known.resolve_left own)
      rw [if_neg own, if_pos (.inl rfl), there]
      simp only [set, named_, Option.map_some, beq_self_eq_true, if_true]
      rfl
    · have apart : ¬ SameLogger name other := by
        rintro (equal | ⟨back, _⟩)
        · exact same equal
        · exact own back
      rw [if_neg apart, settings]
      cases there : r.find? other with
      | none => rfl
      | some l =>
        have named_ : l.name = other := by simpa using List.find?_some there
        have kept : set l = l := if_neg (by simpa [named_] using Ne.symm same)
        rw [Option.map_some, kept]

theorem settings_setUp (r : Registry) (name : Text) (level : Value) (other : Text) :
    (r.setUp name level).1.settings other =
      match if SameLogger name other then (levelOfValue level).toOption else none with
      | some n => .ofLevel? (some n)
      | none => r.settings other := by
  rw [setUp]
  cases levelOfValue level with
  | error e => simp [Except.toOption, settings_make]
  | ok n =>
    -- The logger is made before it is set up, so its name is known by then.
    have known := mem_mention r.names name
    rw [← names_make] at known
    show ((r.make name).update name (Logger.setUp n)).settings other = _
    rw [settings_update n known, settings_make, Except.toOption]
    split <;> rfl

theorem settings_of_failed {r : Registry} {name : Text} {level : Value} {e : SetupError}
    (failed : (r.setUp name level).2 = .error e) (other : Text) :
    (r.setUp name level).1.settings other = r.settings other := by
  rw [setUp] at failed ⊢
  cases given : levelOfValue level with
  | ok n =>
    rw [given] at failed
    cases failed
  | error _ => exact settings_make r name other

end Registry

end Deployments
