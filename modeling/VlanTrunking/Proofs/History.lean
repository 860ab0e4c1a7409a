import Mathlib.Data.Set.Card
import VlanTrunking.Proofs.Publication

/-! The registry against the whole history of a run. A record is what its last publisher held when
it published, there are no other records, and the last publisher cannot come to hold anything else
while it is a server of the domain, wherever it went in the meantime. -/
namespace VlanTrunking

def Service.history (s : Service) : List Step → List Moment
  | [] => []
  | step :: rest => ⟨s, step⟩ :: (s.perform step).1.history rest

/-- The last of some moments that published into a domain. -/
def lastPublication? (domain : String) (moments : List Moment) : Option Moment :=
  moments.findRev? fun m => m.PublishesInto domain

/-- The device that was the last to publish into a domain. -/
def lastPublisher? (domain : String) (moments : List Moment) : Option String :=
  (lastPublication? domain moments).map fun m => m.step.device

theorem lastPublication?_cons (domain : String) (m : Moment) (rest : List Moment) :
    lastPublication? domain (m :: rest) =
      (lastPublication? domain rest).or (if m.PublishesInto domain then some m else none) := by
  unfold lastPublication?
  rw [List.findRev?]
  cases rest.findRev? fun m => m.PublishesInto domain <;> simp

theorem lastPublication?_eq_none {domain : String} {moments : List Moment} :
    lastPublication? domain moments = none ↔ ∀ m ∈ moments, ¬m.PublishesInto domain := by
  rw [lastPublication?, List.findRev?_eq_find?_reverse, List.find?_eq_none]
  simp

namespace Moment

theorem PublishesInto.ne {m : Moment} {domain : String} (h : m.PublishesInto domain) :
    domain ≠ "" := h.2.2.2 ▸ h.2.2.1.2

end Moment

namespace Service

@[simp] theorem run_cons (s : Service) (step : Step) (rest : List Step) :
    (s.run (step :: rest)).1 = ((s.perform step).1.run rest).1 := rfl

theorem holds_run {I : Service → Prop} {s : Service} {steps : List Step} (start : I s)
    (stays : ∀ m ∈ s.history steps, I m.before → I m.after) : I (s.run steps).1 := by
  induction steps generalizing s with
  | nil => exact start
  | cons step rest ih =>
    rw [history, List.forall_mem_cons] at stays
    exact ih (stays.1 start) stays.2

/-- What the last moment of a kind brings about, and all other moments preserve, holds at the end of
the run. -/
theorem holds_since_last {p : Moment → Bool} {I : Service → Prop} {s : Service} {steps : List Step}
    {m : Moment} (last : (s.history steps).findRev? p = some m) (starts : I m.after)
    (stays : ∀ n : Moment, ¬p n → I n.before → I n.after) : I (s.run steps).1 := by
  induction steps generalizing s with
  | nil => cases last
  | cons step rest ih =>
    rw [history, List.findRev?] at last
    cases later : ((s.perform step).1.history rest).findRev? p with
    | some n =>
      rw [later] at last
      exact ih (later.trans last)
    | none =>
      rw [later] at last
      obtain ⟨-, rfl⟩ : p ⟨s, step⟩ ∧ ⟨s, step⟩ = m := by simpa using last
      rw [List.findRev?_eq_find?_reverse, List.find?_eq_none] at later
      rw [run_cons]
      exact holds_run starts fun n hn => stays n (later n (List.mem_reverse.mpr hn))

theorem lookup_run (s : Service) (steps : List Step) (domain : String) :
    (s.run steps).1.registry.lookup domain =
      ((lastPublication? domain (s.history steps)).map fun m => m.left.record).or
        (s.registry.lookup domain) := by
  induction steps generalizing s with
  | nil => rfl
  | cons step rest ih =>
    have here := Moment.lookup_after ⟨s, step⟩ domain
    -- Any publication in the rest of the run hides what this step may have published.
    rw [run_cons, ih, history, lastPublication?_cons]
    cases lastPublication? domain ((s.perform step).1.history rest) with
    | some m => rfl
    | none =>
      rw [Option.map_none, Option.none_or, Option.none_or]
      change (Moment.after ⟨s, step⟩).registry.lookup domain = _
      rw [here]
      split <;> rfl

end Service

namespace Registry

def Named (r : Registry) : Prop := "" ∉ r.records

theorem named_settle {r : Registry} (named : r.Named) (e : Edit) : (r.settle e).1.Named := by
  rw [settle_registry]
  split
  · next publishes => simpa [Named, publishes.advertises.2] using named
  · exact named

theorem isSome_lookup {r : Registry} (named : r.Named) (domain : String) :
    (r.lookup domain).isSome ↔ domain ∈ r.records := by
  by_cases h : domain = ""
  · subst h
    exact iff_of_false (by simp) named
  · simp [lookup, h]

theorem size_eq_ncard {r : Registry} (named : r.Named) :
    r.size = {domain | (r.lookup domain).isSome}.ncard := by
  have keys : {domain | (r.lookup domain).isSome} = ↑r.records.keys.toFinset := by
    ext domain
    simp [isSome_lookup named]
  rw [keys, Set.ncard_coe_finset, List.toFinset_card_of_nodup Std.ExtTreeMap.nodup_keys,
    Std.ExtTreeMap.length_keys]
  rfl

end Registry

namespace Service

theorem named_run {s : Service} (named : s.registry.Named) (steps : List Step) :
    (s.run steps).1.registry.Named := by
  apply holds_run (I := fun s => s.registry.Named) named
  intro m _ before
  rw [m.after_eq_store]
  exact Registry.named_settle before m.edited

end Service

theorem lookup_run_start (steps : List Step) (domain : String) :
    (Service.run {} steps).1.registry.lookup domain =
      (lastPublication? domain (Service.history {} steps)).map fun m => m.left.record := by
  have nothing_before : ({} : Service).registry.lookup domain = none := by
    simp [Registry.lookup]
  rw [Service.lookup_run, nothing_before, Option.or_none]

/-- After any run a domain has a record if something was published into it, which is then what the
last publication left in its device. -/
theorem registry_is_last_publications (steps : List Step) :
    let registry := (Service.run {} steps).1.registry
    let moments := Service.history {} steps
    (∀ domain, registry.lookup domain =
      (lastPublication? domain moments).map fun m => m.left.record) ∧
    registry.lookup "" = none ∧
    registry.size = {domain | ∃ m ∈ moments, m.PublishesInto domain}.ncard := by
  intro registry moments
  refine ⟨lookup_run_start steps, rfl, ?_⟩
  have named : registry.Named := Service.named_run (by simp [Registry.Named]) steps
  rw [Registry.size_eq_ncard named]
  congr 1
  ext domain
  have published : lastPublication? domain moments ≠ none ↔ _ :=
    not_congr lastPublication?_eq_none
  have lookup : registry.lookup domain = _ := lookup_run_start steps domain
  simpa [lookup, Option.isSome_iff_ne_none] using published

namespace Service

/-- As long as a device is a server of a domain, it holds the record of the domain. -/
def Faithful (s : Service) (id domain : String) : Prop :=
  (s.device id).mode = .server → (s.device id).domain = domain →
    s.registry.lookup domain = some (s.device id).record

end Service

theorem Moment.faithful_of_publishesInto {m : Moment} {domain : String}
    (h : m.PublishesInto domain) : m.after.Faithful m.step.device domain := by
  intro _ _
  rw [m.lookup_after, if_pos h]
  rfl

/-- The way back to being a server of the domain leads through a publication, and so does every edit
made there; the publications of others are what has to be ruled out. -/
theorem Moment.faithful_after {m : Moment} {id domain : String} (named : domain ≠ "")
    (faithful : m.before.Faithful id domain)
    (alone : m.PublishesInto domain → m.step.device = id) : m.after.Faithful id domain := by
  by_cases published : m.PublishesInto domain
  · obtain rfl := alone published
    exact faithful_of_publishesInto published
  · intro server at_home
    rw [m.lookup_after, if_neg published]
    by_cases same : m.step.device = id
    · subst same
      have standing : m.left.standing = m.prior.standing :=
        standing_of_quiet ⟨server, at_home ▸ named⟩ (at_home ▸ published)
      simp only [Device.standing, Prod.mk.injEq] at standing
      obtain ⟨mode, name, record⟩ := standing
      have before := faithful (mode ▸ server) (name ▸ at_home)
      rw [before]
      exact congrArg some record.symm
    · have untouched : m.after.device id = m.before.device id := by
        rw [m.after_eq_store, Service.device_store_of_ne _ _ (Ne.symm same)]
      rw [untouched] at server at_home ⊢
      exact faithful server at_home

theorem Service.faithful_of_lastPublisher {s : Service} {steps : List Step} {id domain : String}
    (last : lastPublisher? domain (s.history steps) = some id) :
    (s.run steps).1.Faithful id domain := by
  obtain ⟨m, publication, rfl⟩ := Option.map_eq_some_iff.mp last
  rw [lastPublication?] at publication
  have published : m.PublishesInto domain := by
    rw [List.findRev?_eq_find?_reverse] at publication
    simpa using List.find?_some publication
  apply holds_since_last (I := fun s => s.Faithful m.step.device domain) publication
  · exact Moment.faithful_of_publishesInto published
  · intro n quiet before
    apply Moment.faithful_after published.ne before
    intro again
    simp [again] at quiet

/-- The author of a record holds exactly the record whenever it is a server of the domain. -/
theorem author_holds_record (steps : List Step) (domain : String) (record : DomainRecord)
    (known : (Service.run {} steps).1.registry.lookup domain = some record) :
    ∃ m, lastPublication? domain (Service.history {} steps) = some m ∧ m.left.record = record ∧
      let author := (Service.run {} steps).1.device m.step.device
      (author.mode = .server → author.domain = domain →
        author.revision = record.revision ∧ author.vlans = record.vlans) := by
  have published := lookup_run_start steps domain
  rw [known] at published
  obtain ⟨m, last, wrote⟩ := Option.map_eq_some_iff.mp published.symm
  refine ⟨m, last, wrote, ?_⟩
  intro author server at_home
  have by_author : lastPublisher? domain (Service.history {} steps) = some m.step.device := by
    rw [lastPublisher?, last, Option.map_some]
  have faithful := Service.faithful_of_lastPublisher by_author server at_home
  rw [known, Option.some.injEq] at faithful
  rw [faithful]
  exact ⟨rfl, rfl⟩

def excursion : List Step :=
  [.config "S1" (.setDomain "lab"), .config "S1" (.defineVlans [10] (some "users")),
    .config "S1" (.setMode .transparent), .config "S1" (.removeVlans [10]),
    .config "S1" (.defineVlans [20] none), .config "C1" (.setMode .client),
    .config "C1" (.setDomain "lab"), .config "S1" (.setMode .server)]

theorem author_holds_record_excursion :
    let record : DomainRecord := ⟨1, (∅ : VlanDatabase).insert 20 {}⟩
    let s := (Service.run {} excursion).1
    let author := s.device "S1"
    s.registry.lookup "lab" = some record ∧
      (∃ m, lastPublication? "lab" (Service.history {} excursion) = some m ∧
        m.left.record = record ∧ m.step.device = "S1") ∧
      author.mode = .server ∧ author.domain = "lab" ∧
      author.revision = record.revision ∧ author.vlans = record.vlans := by
  intro record s author
  have known : s.registry.lookup "lab" = some record := by decide
  obtain ⟨m, last, wrote, holds⟩ := author_holds_record excursion "lab" record known
  have publisher : lastPublisher? "lab" (Service.history {} excursion) = some "S1" := by decide
  have by_author : m.step.device = "S1" := by
    rw [lastPublisher?, last] at publisher
    exact Option.some.inj publisher
  have server : author.mode = .server := by decide
  have at_home : author.domain = "lab" := by decide
  rw [by_author] at holds
  exact ⟨known, ⟨m, last, wrote, by_author⟩, server, at_home, holds server at_home⟩

end VlanTrunking
