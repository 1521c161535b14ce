import Deployments.Proofs.Raised
import Deployments.Proofs.Snapshot
import Deployments.Unchecked

/-!
Fetching from a handle that serves records which may be missing or unchecked. Each facet that is
asked for gives its entries, or the first that does not ends the fetch.
-/

namespace Deployments

namespace Unchecked

/-- The record stands for something: all but machines without an identity do. -/
def isKept : (facet : Facet) → Served facet.Record → Bool
  | .instances, .checked r => r.hasVm
  | .instances, .unchecked fields => (optional (.text "") fields ["vm_cid", "vm_id"]).isTruthy
  | _, _ => true

theorem bind_ne_none {α β : Type} {x : Except Fault α} {f : α → Except Fault (Option β)}
    (some_ : ∀ a, f a ≠ .ok none) : x >>= f ≠ .ok none := by
  cases x with
  | error e =>
    intro same
    cases same
  | ok a => exact some_ a

theorem instance?_eq_none_iff (fields : Fields) : instance? fields = .ok none ↔
    (optional (.text "") fields ["vm_cid", "vm_id"]).isTruthy = false := by
  unfold instance?
  cases exists_ : (optional (.text "") fields ["vm_cid", "vm_id"]).isTruthy with
  | false => simp [exists_]
  | true =>
    refine iff_of_false ?_ Bool.noConfusion
    simp only [exists_, if_true]
    -- Whatever is asked of the record on the way, what is left ends in an instance.
    repeat' first
      | (intro same; cases same)
      | refine bind_ne_none fun _ => ?_
      | split

theorem map_map_eq_none_iff {α β : Type} (x : Except Fault (Option α)) (f : α → β) :
    x.map (Option.map f) = .ok none ↔ x = .ok none := by
  rcases x with _ | _ | _ <;> simp [Except.map]

theorem map_some_ne_none {α β : Type} (x : Except Fault α) (f : α → β) :
    (x.map some).map (Option.map f) ≠ .ok none := by
  cases x <;> exact nofun

theorem mapping_eq_none_iff (facet : Facet) (r : Served facet.Record) :
    mapping facet r = .ok none ↔ isKept facet r = false := by
  cases r with
  | missing => cases facet <;> exact iff_of_false nofun Bool.noConfusion
  | checked r =>
    cases facet with
    | errands | releases | stemcells => exact iff_of_false nofun Bool.noConfusion
    | instances =>
      rw [isKept, ← Facet.entryOf_eq_none_iff, mapping]
      exact map_map_eq_none_iff _ _
  | unchecked fields =>
    cases facet with
    | errands | releases | stemcells =>
      exact iff_of_false (map_some_ne_none _ _) Bool.noConfusion
    | instances =>
      rw [isKept, ← instance?_eq_none_iff, mapping]
      exact map_map_eq_none_iff _ _

end Unchecked

namespace Handle

abbrev Serving : Type := Handle fun facet => Served facet.Record

variable (h : Serving)

/-- The facet gives the entries: one for each record that stands for something, in order. -/
def Gives (facet : Facet) (entries : List (Loose facet.Entry)) : Prop :=
  ∃ records, h.answer facet = .ok records ∧
    List.Forall₂ (fun r e => Unchecked.mapping facet r = .ok (some e))
      (records.filter (Unchecked.isKept facet)) entries

def Reports (facet : Facet) (e : Raised) (f : Failure) : Prop :=
  Failure.Reports (.facet h.name facet) (Failure.facetFront h.name facet) e f

/-- The failure of a facet: its call raised an error, or the first record that cannot be mapped is
at fault. -/
inductive FailsAt (facet : Facet) : Failure → Prop
  | call {e : Raised} {f : Failure} (raised : h.answer facet = .error e)
      (reports : h.Reports facet e f) :
    FailsAt facet f
  | record {before after : List (Served facet.Record)} {r : Served facet.Record} {cause : Fault}
      (answered : h.answer facet = .ok (before ++ r :: after))
      (good : ∀ other ∈ before, ∃ entry, Unchecked.mapping facet other = .ok entry)
      (bad : Unchecked.mapping facet r = .error cause) :
    FailsAt facet (.fault cause)

/-- What should be done to fetch from a handle, and what should come of it. -/
inductive Fetches :
    List Deed × Except Failure (Snapshot fun facet => Loose facet.Entry) → Prop
  | complete {s : Snapshot fun facet => Loose facet.Entry} (name : s.name = h.name)
      (gives : ∀ facet, h.Gives facet (s.get facet)) :
    Fetches (Deed.ofFacets Facet.all, .ok s)
  | broken {before after : List Facet} {facet : Facet} {f : Failure}
      (order : Facet.all = before ++ facet :: after)
      (good : ∀ other ∈ before, ∃ entries, h.Gives other entries) (fails : h.FailsAt facet f) :
    Fetches (Deed.ofFacets (before ++ [facet]), .error f)

variable {h}

theorem read_eq_ok_iff {facet : Facet} {entries : List (Loose facet.Entry)} :
    h.read Unchecked.mapping facet = .ok entries ↔ h.Gives facet entries := by
  rw [Gives, read]
  cases h.answer facet with
  | error e => simp
  | ok records =>
    simp only [Except.ok.injEq, exists_eq_left',
      ← entriesOf_eq_ok_iff (Unchecked.mapping_eq_none_iff facet)]
    cases entriesOf (Unchecked.mapping facet) records <;> simp

theorem isReadable_iff {facet : Facet} :
    h.isReadable Unchecked.mapping facet = true ↔ ∃ entries, h.Gives facet entries := by
  simp only [isReadable, ← read_eq_ok_iff]
  cases h.read Unchecked.mapping facet <;> simp [Except.isOk, Except.toBool]

theorem reports_failureOf_iff (facet : Facet) (e : Raised) :
    h.Reports facet e (h.failureOf facet e) ↔ (e.isOrdinary = true → e.HasText) := by
  apply Failure.reports_ofRaised_iff
  intro text given
  exact Failure.message_facet h.name facet given

theorem failsAt_of_read {facet : Facet} {f : Failure}
    (spoken : ∀ e, h.answer facet = .error e → e.isOrdinary = true → e.HasText)
    (failed : h.read Unchecked.mapping facet = .error f) : h.FailsAt facet f := by
  rw [read] at failed
  cases answer : h.answer facet with
  | error e =>
    rw [answer] at failed
    cases failed
    exact .call answer ((reports_failureOf_iff facet e).mpr (spoken e answer))
  | ok records =>
    simp only [answer] at failed
    cases mapped : entriesOf (Unchecked.mapping facet) records with
    | ok entries =>
      rw [mapped] at failed
      cases failed
    | error cause =>
      rw [mapped] at failed
      cases failed
      obtain ⟨before, r, after, rfl, good, bad⟩ := exists_of_entriesOf_error mapped
      exact .record answer good bad

theorem FailsAt.reports {facet : Facet} {f : Failure} {e : Raised} (fails : h.FailsAt facet f)
    (raised : h.answer facet = .error e) : h.Reports facet e f := by
  cases fails with
  | call again reports =>
    cases raised.symm.trans again
    exact reports
  | record answered => cases raised.symm.trans answered

/-- The errors that callers handle have a text, as far as they come out of the first call that
fails. -/
def Speaks (h : Serving) : Prop :=
  ∀ before facet after e, Facet.all = before ++ facet :: after →
    (∀ other ∈ before, ∃ entries, h.Gives other entries) → h.answer facet = .error e →
      e.isOrdinary = true → e.HasText

theorem run_of_readable (readable : ∀ facet, h.isReadable Unchecked.mapping facet = true) :
    h.Fetches (h.run Unchecked.mapping) := by
  obtain ⟨s, fetched⟩ := h.fetch_of_readable Unchecked.mapping readable
  have deeds : (h.run Unchecked.mapping).1 = Deed.ofFacets Facet.all := by
    rw [run, deeds_readAll, ← Deed.calls_ofFacets (h.reached Unchecked.mapping Facet.all),
      ← h.deeds_readAll Unchecked.mapping _ (.blank h.name),
      h.calls_readAll_of_ok Unchecked.mapping fetched]
  obtain ⟨name, given, -⟩ :=
    h.get_of_readAll Unchecked.mapping (by decide : Facet.all.Nodup) fetched
  have whole : h.run Unchecked.mapping = (Deed.ofFacets Facet.all, .ok s) :=
    Prod.ext deeds fetched
  rw [whole]
  exact .complete name fun facet => read_eq_ok_iff.mp (given facet (Facet.mem_all facet))

theorem fetches_run (speaks : h.Speaks) : h.Fetches (h.run Unchecked.mapping) := by
  rcases h.readable_or_first Unchecked.mapping Facet.all with
    readable | ⟨before, facet, after, f, order, good, failed⟩
  · exact run_of_readable fun facet => readable facet (Facet.mem_all facet)
  · have stopped := h.readAll_of_error Unchecked.mapping good failed after (.blank h.name)
    rw [run, order, stopped]
    simp only [isReadable_iff] at good
    have spoken := fun e => speaks before facet after e order good
    exact .broken order good (failsAt_of_read spoken failed)

theorem speaks_of_fetches (fetches : h.Fetches (h.run Unchecked.mapping)) : h.Speaks := by
  intro before facet after e order good raised
  have failed : h.read Unchecked.mapping facet = .error (h.failureOf facet e) := by
    rw [read, raised]
  simp only [← isReadable_iff] at good
  have stopped := h.readAll_of_error Unchecked.mapping good failed after (.blank h.name)
  rw [run, order, stopped] at fetches
  generalize same : (Deed.ofFacets (before ++ [facet]), Except.error (h.failureOf facet e)) =
    outcome at fetches
  cases fetches with
  | complete => cases (Prod.ext_iff.mp same).2
  | @broken _ _ other _ _ _ fails =>
    obtain ⟨deeds, rfl⟩ : _ ∧ h.failureOf facet e = _ := by simpa using same
    have last := congrArg Deed.calls deeds
    rw [Deed.calls_ofFacets, Deed.calls_ofFacets] at last
    cases (List.append_inj' last rfl).2
    exact (reports_failureOf_iff facet e).mp (fails.reports raised)

end Handle

end Deployments
