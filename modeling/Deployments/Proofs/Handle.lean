import Mathlib.Data.List.Forall2
import Deployments.Handle

/-!
What is done to read a handle and what comes of it: its facets are called for up to and including
the first that cannot be read, each announced just before, and a failure is that of one facet.
-/

namespace Deployments

section Entries

variable {α β : Type} {map : α → Except Fault (Option β)}

theorem entriesOf_filter {keep : α → Bool} (omits : ∀ r, keep r = false → map r = .ok none)
    (records : List α) : entriesOf map (records.filter keep) = entriesOf map records := by
  induction records with
  | nil => rfl
  | cons r rest ih =>
    cases kept : keep r with
    | true => rw [List.filter_cons_of_pos kept, entriesOf, entriesOf, ih]
    | false =>
      rw [List.filter_cons_of_neg (by simp [kept]), ih, entriesOf, omits r kept]
      cases entriesOf map rest <;> rfl

/-- The records that count have an entry each. -/
theorem entriesOf_eq_ok_iff {keep : α → Bool} (omits : ∀ r, map r = .ok none ↔ keep r = false)
    {records : List α} {entries : List β} :
    entriesOf map records = .ok entries ↔
      List.Forall₂ (fun r e => map r = .ok (some e)) (records.filter keep) entries := by
  induction records generalizing entries with
  | nil =>
    rw [entriesOf, List.filter_nil, List.forall₂_nil_left_iff]
    exact ⟨fun same => (Except.ok.inj same).symm, fun same => same ▸ rfl⟩
  | cons r rest ih =>
    cases kept : keep r with
    | false =>
      rw [List.filter_cons_of_neg (by simp [kept]), ← ih, entriesOf, (omits r).mpr kept]
      cases entriesOf map rest <;> simp [bind, Except.bind]
    | true =>
      rw [List.filter_cons_of_pos kept, List.forall₂_cons_left_iff, entriesOf]
      constructor
      · intro mapped
        cases first : map r with
        | error f =>
          rw [first] at mapped
          cases mapped
        | ok entry =>
          cases others : entriesOf map rest with
          | error f =>
            rw [first, others] at mapped
            cases mapped
          | ok more =>
            rw [first, others] at mapped
            cases entry with
            | none => cases kept.symm.trans ((omits r).mp first)
            | some e =>
              cases mapped
              exact ⟨e, more, rfl, ih.mp others, rfl⟩
      · rintro ⟨e, more, first, others, rfl⟩
        rw [first, ih.mpr others]
        rfl

theorem exists_of_entriesOf_error {records : List α} {f : Fault}
    (failed : entriesOf map records = .error f) :
    ∃ before r after, records = before ++ r :: after ∧
      (∀ other ∈ before, ∃ entry, map other = .ok entry) ∧ map r = .error f := by
  induction records with
  | nil => cases failed
  | cons r rest ih =>
    rw [entriesOf] at failed
    cases mapped : map r with
    | error g =>
      rw [mapped] at failed
      cases failed
      exact ⟨[], r, rest, rfl, by simp, mapped⟩
    | ok entry =>
      cases others : entriesOf map rest with
      | ok entries =>
        rw [mapped, others] at failed
        cases failed
      | error g =>
        rw [mapped, others] at failed
        cases failed
        obtain ⟨before, bad, after, rfl, good, fault⟩ := ih others
        exact ⟨r :: before, bad, after, rfl, List.forall_mem_cons.mpr ⟨⟨entry, mapped⟩, good⟩,
          fault⟩

end Entries

namespace Deed

/-- What is done to read facets: each is announced and then called for. -/
def ofFacets (facets : List Facet) : List Deed := facets.flatMap fun f => [.line f, .call f]

@[simp] theorem calls_append (deeds others : List Deed) :
    calls (deeds ++ others) = calls deeds ++ calls others := List.filterMap_append

@[simp] theorem calls_ofFacets (facets : List Facet) : calls (ofFacets facets) = facets := by
  induction facets with
  | nil => rfl
  | cons facet rest ih => exact congrArg (facet :: ·) ih

@[simp] theorem lines_ofFacets (facets : List Facet) : lines (ofFacets facets) = facets := by
  induction facets with
  | nil => rfl
  | cons facet rest ih => exact congrArg (facet :: ·) ih

theorem mem_calls (deeds : List Deed) (facet : Facet) :
    facet ∈ calls deeds ↔ .call facet ∈ deeds := by
  simp only [calls, List.mem_filterMap]
  constructor
  · rintro ⟨deed, member, same⟩
    cases deed <;> simp_all
  · intro member
    exact ⟨_, member, rfl⟩

end Deed

namespace Failure

/-- Wrapping an error keeps whether callers handle it, as a number without text is handled too. -/
theorem ofRaised_isOrdinary (wrap : Raised → Failure) (e : Raised)
    (handled : (wrap e).isOrdinary = true) : (ofRaised wrap e).isOrdinary = e.isOrdinary := by
  unfold ofRaised
  split
  next ordinary =>
    rw [ordinary]
    split
    · exact handled
    · rfl
  next => rfl

theorem ofRaised_ne_unfinished (wrap : Raised → Failure) (e : Raised)
    (wrapped : wrap e ≠ unfinished) : ofRaised wrap e ≠ unfinished := by
  unfold ofRaised
  split
  · split
    · exact wrapped
    · exact Failure.noConfusion
  · exact Failure.noConfusion

end Failure

namespace Handle

def failing {ρ : Facet → Type} (name : Text) (facet : Facet) (e : Raised) : Handle ρ :=
  ⟨name, fun f => if f = facet then .error e else .ok []⟩

def quiet {ρ : Facet → Type} (name : Text) : Handle ρ := ⟨name, fun _ => .ok []⟩

variable {ρ η : Facet → Type} (map : Mapping ρ η) (h : Handle ρ)

/-- The facet can be read: its call gives records, and they can be mapped. -/
def isReadable (facet : Facet) : Bool := (h.read map facet).isOk

/-- The facets up to and including the first that cannot be read. -/
def reached (facets : List Facet) : List Facet :=
  facets.takeWhile (h.isReadable map) ++ (facets.dropWhile (h.isReadable map)).take 1

theorem reached_cons_of_ok {facet : Facet} {entries : List (η facet)}
    (outcome : h.read map facet = .ok entries) (todo : List Facet) :
    h.reached map (facet :: todo) = facet :: h.reached map todo := by
  simp [reached, isReadable, outcome, Except.isOk, Except.toBool]

theorem reached_cons_of_error {facet : Facet} {e : Failure}
    (outcome : h.read map facet = .error e) (todo : List Facet) :
    h.reached map (facet :: todo) = [facet] := by
  simp [reached, isReadable, outcome, Except.isOk, Except.toBool]

/-- What is still done once the outcome of a facet is known, and what comes of it. -/
def resume (facet : Facet) (entries : Except Failure (List (η facet))) (todo : List Facet)
    (s : Snapshot η) : List Deed × Except Failure (Snapshot η) :=
  match entries with
  | .error e => ([], .error e)
  | .ok entries => h.readAll map todo (s.set facet entries)

theorem readAll_cons (facet : Facet) (todo : List Facet) (s : Snapshot η) :
    h.readAll map (facet :: todo) s =
      let later := h.resume map facet (h.read map facet) todo s
      ([.line facet, .call facet] ++ later.1, later.2) := by
  rw [readAll]
  cases h.read map facet <;> rfl

theorem deeds_readAll (todo : List Facet) (s : Snapshot η) :
    (h.readAll map todo s).1 = Deed.ofFacets (h.reached map todo) := by
  induction todo generalizing s with
  | nil => rfl
  | cons facet todo ih =>
    rw [readAll_cons]
    cases outcome : h.read map facet with
    | error e =>
      rw [h.reached_cons_of_error map outcome]
      rfl
    | ok entries =>
      rw [h.reached_cons_of_ok map outcome]
      simp only [resume, ih]
      rfl

theorem calls_run : Deed.calls (h.run map).1 = h.reached map Facet.all := by
  rw [run, deeds_readAll, Deed.calls_ofFacets]

theorem lines_run : Deed.lines (h.run map).1 = h.reached map Facet.all := by
  rw [run, deeds_readAll, Deed.lines_ofFacets]

theorem readAll_error {todo : List Facet} {s : Snapshot η} {e : Failure}
    (failed : (h.readAll map todo s).2 = .error e) :
    ∃ facet ∈ todo, h.read map facet = .error e := by
  induction todo generalizing s with
  | nil => cases failed
  | cons facet todo ih =>
    rw [readAll_cons] at failed
    cases outcome : h.read map facet with
    | error found =>
      simp only [outcome, resume] at failed
      cases failed
      exact ⟨facet, List.mem_cons_self, outcome⟩
    | ok entries =>
      simp only [outcome, resume] at failed
      obtain ⟨other, member, same⟩ := ih failed
      exact ⟨other, List.mem_cons_of_mem facet member, same⟩

theorem calls_readAll_of_ok {todo : List Facet} {s t : Snapshot η}
    (succeeded : (h.readAll map todo s).2 = .ok t) :
    Deed.calls (h.readAll map todo s).1 = todo := by
  rw [deeds_readAll, Deed.calls_ofFacets]
  induction todo generalizing s with
  | nil => rfl
  | cons facet todo ih =>
    rw [readAll_cons] at succeeded
    cases outcome : h.read map facet with
    | error e =>
      simp only [outcome, resume] at succeeded
      cases succeeded
    | ok entries =>
      simp only [outcome, resume] at succeeded
      rw [h.reached_cons_of_ok map outcome, ih succeeded]

theorem get_of_readAll {todo : List Facet} (apart : todo.Nodup) {s t : Snapshot η}
    (succeeded : (h.readAll map todo s).2 = .ok t) :
    t.name = s.name ∧ (∀ facet ∈ todo, h.read map facet = .ok (t.get facet)) ∧
      ∀ facet, facet ∉ todo → t.get facet = s.get facet := by
  induction todo generalizing s with
  | nil =>
    cases succeeded
    simp
  | cons facet todo ih =>
    obtain ⟨new, apart⟩ := List.nodup_cons.mp apart
    rw [readAll_cons] at succeeded
    cases outcome : h.read map facet with
    | error e =>
      simp only [outcome, resume] at succeeded
      cases succeeded
    | ok entries =>
      simp only [outcome, resume] at succeeded
      obtain ⟨name, read, others⟩ := ih apart succeeded
      refine ⟨name.trans (s.name_set facet entries), ?_, ?_⟩
      · rw [List.forall_mem_cons, outcome, others facet new, s.get_set_self]
        exact ⟨rfl, read⟩
      · intro other outside
        rw [List.mem_cons, not_or] at outside
        rw [others other outside.2, s.get_set_of_ne entries outside.1]

theorem readAll_of_error {before : List Facet} {facet : Facet} {f : Failure}
    (readable : ∀ other ∈ before, h.isReadable map other = true)
    (failed : h.read map facet = .error f) (after : List Facet) (s : Snapshot η) :
    h.readAll map (before ++ facet :: after) s = (Deed.ofFacets (before ++ [facet]), .error f) := by
  induction before generalizing s with
  | nil =>
    rw [List.nil_append, readAll_cons, failed]
    rfl
  | cons first before ih =>
    rw [List.forall_mem_cons] at readable
    rw [List.cons_append, readAll_cons]
    cases outcome : h.read map first with
    | error e =>
      rw [isReadable, outcome] at readable
      cases readable.1
    | ok entries =>
      simp only [resume]
      rw [ih readable.2]
      rfl

theorem readable_or_first (todo : List Facet) :
    (∀ facet ∈ todo, h.isReadable map facet = true) ∨
      ∃ before facet after f, todo = before ++ facet :: after ∧
        (∀ other ∈ before, h.isReadable map other = true) ∧ h.read map facet = .error f := by
  induction todo with
  | nil => simp
  | cons facet todo ih =>
    cases outcome : h.read map facet with
    | error f => exact .inr ⟨[], facet, todo, f, rfl, by simp, outcome⟩
    | ok entries =>
      have readable : h.isReadable map facet = true := by
        rw [isReadable, outcome]
        rfl
      rcases ih with all | ⟨before, bad, after, f, rfl, good, failed⟩
      · exact .inl (List.forall_mem_cons.mpr ⟨readable, all⟩)
      · exact .inr ⟨facet :: before, bad, after, f, rfl,
          List.forall_mem_cons.mpr ⟨readable, good⟩, failed⟩

/-- Handles of one name that answer alike as far as they are asked are read alike. -/
theorem readAll_congr {h k : Handle ρ} (name : k.name = h.name) {todo : List Facet}
    (alike : ∀ facet ∈ h.reached map todo, k.answer facet = h.answer facet) (s : Snapshot η) :
    k.readAll map todo s = h.readAll map todo s := by
  induction todo generalizing s with
  | nil => rfl
  | cons facet todo ih =>
    have same : k.read map facet = h.read map facet := by
      -- Whatever comes of it, the next facet is called for.
      have answer : k.answer facet = h.answer facet := by
        cases outcome : h.read map facet with
        | error f => exact alike facet (by simp [h.reached_cons_of_error map outcome])
        | ok entries => exact alike facet (by simp [h.reached_cons_of_ok map outcome])
      simp only [read, failureOf, answer, name]
    rw [readAll_cons, readAll_cons, same]
    cases outcome : h.read map facet with
    | error f => rfl
    | ok entries =>
      rw [h.reached_cons_of_ok map outcome, List.forall_mem_cons] at alike
      simp only [resume, ih alike.2]

theorem fetch_of_readable (readable : ∀ facet, h.isReadable map facet = true) :
    ∃ snapshot, h.fetch map = .ok snapshot := by
  have all : ∀ (todo : List Facet) (s : Snapshot η), ∃ t, (h.readAll map todo s).2 = .ok t := by
    intro todo
    induction todo with
    | nil => exact fun s => ⟨s, rfl⟩
    | cons facet todo ih =>
      intro s
      rw [readAll_cons]
      have readable := readable facet
      cases outcome : h.read map facet with
      | error e =>
        rw [isReadable, outcome] at readable
        cases readable
      | ok entries => exact ih (s.set facet entries)
  exact all Facet.all (.blank h.name)

theorem read_error {facet : Facet} {f : Failure} (failed : h.read map facet = .error f) :
    (∃ e, h.answer facet = .error e ∧ f = h.failureOf facet e) ∨ ∃ cause, f = .fault cause := by
  unfold read at failed
  split at failed
  next e answered =>
    cases failed
    exact .inl ⟨e, answered, rfl⟩
  next =>
    split at failed
    · cases failed
    next cause _ =>
      cases failed
      exact .inr ⟨cause, rfl⟩

/-- If callers handle what the calls raise, they handle the failure of the whole. -/
theorem fetch_isOrdinary {e : Failure} (failed : h.fetch map = .error e)
    (raised : ∀ facet cause, h.answer facet = .error cause → cause.isOrdinary = true) :
    e.isOrdinary = true := by
  obtain ⟨facet, -, failed⟩ := h.readAll_error map failed
  rcases h.read_error map failed with ⟨cause, answered, rfl⟩ | ⟨cause, rfl⟩
  · exact (Failure.ofRaised_isOrdinary _ cause rfl).trans (raised facet cause answered)
  · rfl

theorem fetch_ne_unfinished : h.fetch map ≠ .error .unfinished := by
  intro failed
  obtain ⟨facet, -, failed⟩ := h.readAll_error map failed
  rcases h.read_error map failed with ⟨cause, -, same⟩ | ⟨cause, same⟩
  · exact Failure.ofRaised_ne_unfinished _ cause Failure.noConfusion same.symm
  · cases same

end Handle

end Deployments
