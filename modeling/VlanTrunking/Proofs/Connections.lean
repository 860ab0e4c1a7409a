import Mathlib.Data.List.Induction
import Mathlib.Data.List.TakeWhile
import VlanTrunking.Console.Endpoint

/-! Who is served at the endpoint. Whether a client is served can be read off the steps of the
outside alone: it has asked for the endpoint's path, and has not closed, been lost or sent an
illegal frame since. The endpoint keeps exactly this, and a step does what the rules for it say. -/
namespace VlanTrunking

def PlainPath (path : String) : Prop := ∀ ch ∈ path.toList, ch ≠ '?' ∧ ch ≠ '#'

instance (path : String) : Decidable (PlainPath path) :=
  decidable_of_iff (path.toList.all fun ch => ch != '?' && ch != '#') (by simp [PlainPath])

/-- A target is a path with at most a query and a fragment after it; with nothing before them it is
the root. -/
def PathOf (path target : String) : Prop :=
  ∃ bare rest : List Char, target.toList = bare ++ rest ∧ (∀ ch ∈ bare, ch ≠ '?' ∧ ch ≠ '#') ∧
    (∀ ch ∈ rest.head?, ch = '?' ∨ ch = '#') ∧ path = if bare = [] then "/" else String.ofList bare

theorem pathOf_iff {path target : String} : PathOf path target ↔ barePath target = path := by
  constructor
  · rintro ⟨bare, rest, split, plain, stop, rfl⟩
    have cut : target.toList.takeWhile (fun c => c != '?' && c != '#') = bare := by
      rw [split, List.takeWhile_append_of_pos (by simpa using plain)]
      cases rest with
      | nil => simp
      | cons ch rest =>
        obtain rfl | rfl := stop ch rfl <;> simp
    simp only [barePath, cut, List.isEmpty_iff]
  · rintro rfl
    refine ⟨target.toList.takeWhile fun c => c != '?' && c != '#',
      target.toList.dropWhile fun c => c != '?' && c != '#', List.takeWhile_append_dropWhile.symm,
      ?_, ?_, by simp only [barePath, List.isEmpty_iff]⟩
    · intro ch inside
      simpa using List.mem_takeWhile_imp inside
    · intro ch first
      have stops := List.head?_dropWhile_not (fun c => c != '?' && c != '#') target.toList
      rw [Option.mem_def.mp first] at stops
      simpa [or_iff_not_imp_left] using stops

theorem PathOf.plain {path target : String} (made_out : PathOf path target) : PlainPath path := by
  obtain ⟨bare, _, -, plain, -, rfl⟩ := made_out
  split
  · decide
  · rwa [PlainPath, String.toList_ofList]

namespace Entrance

/-- What is documented of the layer of HTTP: a path has no query or fragment in it, and the path of
a target in origin form, which begins with a slash, is what the target has before them. -/
structure Documented (door : Entrance) : Prop where
  plain (target path : String) : door.pathOf? target = some path → PlainPath path
  origin (target path : String) :
    target.toList.head? = some '/' → door.pathOf? target = some path → PathOf path target

theorem documented_ofPath (path : String) : (ofPath path).Documented where
  plain _ _ taken := (pathOf_iff.mpr (Option.some.inj taken)).plain
  origin _ _ _ taken := pathOf_iff.mpr (Option.some.inj taken)

end Entrance

/-- A request target asks for the path of the endpoint. -/
def AsksFor (door : Entrance) (target : String) : Prop := door.pathOf? target = some door.path

instance (door : Entrance) (target : String) : Decidable (AsksFor door target) :=
  inferInstanceAs (Decidable (_ = _))

theorem AsksFor.cases (door : Entrance) (target : String) :
    AsksFor door target ∨ (∃ other, door.pathOf? target = some other ∧ other ≠ door.path) ∨
      door.pathOf? target = none := by
  cases taken : door.pathOf? target with
  | none => exact .inr (.inr rfl)
  | some other =>
    by_cases same : other = door.path
    · exact .inl (taken.trans (congrArg some same))
    · exact .inr (.inl ⟨other, rfl, same⟩)

theorem not_asksFor_of_taken {door : Entrance} {target other : String}
    (taken : door.pathOf? target = some other) (astray : other ≠ door.path) :
    ¬AsksFor door target := by
  simpa [AsksFor, taken] using astray

theorem not_asksFor_of_dropped {door : Entrance} {target : String}
    (dropped : door.pathOf? target = none) : ¬AsksFor door target := by
  simp [AsksFor, dropped]

theorem asksFor_iff_of_origin {door : Entrance} (documented : door.Documented) {target : String}
    (origin : target.toList.head? = some '/') (taken : (door.pathOf? target).isSome) :
    AsksFor door target ↔ PathOf door.path target := by
  obtain ⟨path, made_out⟩ := Option.isSome_iff_exists.mp taken
  have bare := documented.origin target path origin made_out
  rw [AsksFor, made_out, Option.some.injEq, pathOf_iff, pathOf_iff.mp bare]

/-- The frames after which a client is not served any more. -/
def ClientFrame.Ends (f : ClientFrame) : Prop := f = .close ∨ f = .lost ∨ f = .illegal

def ClientFrame.PassedOver (f : ClientFrame) : Prop := f = .binary ∨ f = .ping ∨ f = .pong

theorem ClientFrame.kinds (f : ClientFrame) : (∃ raw, f = .text raw) ∨ f.PassedOver ∨ f.Ends := by
  cases f <;> simp [PassedOver, Ends]

theorem ClientFrame.PassedOver.not_ends {f : ClientFrame} (aside : f.PassedOver) : ¬f.Ends := by
  obtain rfl | rfl | rfl := aside <;> simp [Ends]

instance : DecidablePred ClientFrame.Ends := fun _ => inferInstanceAs (Decidable (_ ∨ _ ∨ _))

def ClientStep.Ends (client : Nat) : ClientStep → Prop
  | connect _ => False
  | frame other f => other = client ∧ f.Ends

instance (client : Nat) : DecidablePred (ClientStep.Ends client)
  | .connect _ => inferInstanceAs (Decidable False)
  | .frame _ _ => inferInstanceAs (Decidable (_ ∧ _))

def newClient : List ClientStep → Nat
  | [] => 0
  | .connect _ :: rest => newClient rest + 1
  | .frame _ _ :: rest => newClient rest

theorem newClient_append (past more : List ClientStep) :
    newClient (past ++ more) = newClient past + newClient more := by
  induction past with
  | nil => exact (Nat.zero_add _).symm
  | cons step rest ih => cases step <;> simp [newClient, ih, Nat.add_right_comm]

structure Connection where
  target : String
  since : List ClientStep

def connection? : Nat → List ClientStep → Option Connection
  | _, [] => none
  | 0, .connect target :: rest => some ⟨target, rest⟩
  | client + 1, .connect _ :: rest => connection? client rest
  | client, .frame _ _ :: rest => connection? client rest

/-- A client is served after some steps if it has connected for the path of the endpoint and none of
the steps since has ended it. -/
def Served (door : Entrance) (past : List ClientStep) (client : Nat) : Prop :=
  ∃ connection ∈ connection? client past,
    AsksFor door connection.target ∧ ∀ step ∈ connection.since, ¬step.Ends client

instance (door : Entrance) (past : List ClientStep) (client : Nat) :
    Decidable (Served door past client) :=
  inferInstanceAs (Decidable (∃ connection ∈ connection? client past, _))

theorem connection?_connect (client : Nat) (past : List ClientStep) (target : String) :
    connection? client (past ++ [.connect target]) =
      if client = newClient past then some ⟨target, []⟩
      else (connection? client past).map fun k => ⟨k.target, k.since ++ [.connect target]⟩ := by
  induction past generalizing client with
  | nil => cases client <;> simp [connection?, newClient]
  | cons step rest ih =>
    cases step with
    | connect earlier =>
      cases client <;> simp [connection?, newClient, ih]
    | frame other f => cases client <;> exact ih _

theorem connection?_frame (client : Nat) (past : List ClientStep) (other : Nat) (f : ClientFrame) :
    connection? client (past ++ [.frame other f]) =
      (connection? client past).map fun k => ⟨k.target, k.since ++ [.frame other f]⟩ := by
  induction past generalizing client with
  | nil => cases client <;> rfl
  | cons step rest ih =>
    cases step with
    | connect earlier => cases client <;> simp [connection?, ih]
    | frame other f => cases client <;> exact ih _

section

variable {door : Entrance} {past : List ClientStep} {client : Nat}

theorem served_connect {target : String} :
    Served door (past ++ [.connect target]) client ↔
      if client = newClient past then AsksFor door target else Served door past client := by
  rw [Served, connection?_connect]
  split
  · simp
  · simp [Served, ClientStep.Ends, or_imp, forall_and]

theorem served_frame {other : Nat} {f : ClientFrame} :
    Served door (past ++ [.frame other f]) client ↔
      Served door past client ∧ ¬(ClientStep.frame other f).Ends client := by
  rw [Served, connection?_frame]
  simp [Served, or_imp, forall_and, ← and_assoc, exists_and_right]

end

namespace Endpoint

variable {door : Entrance} {c : ConsoleSettings}

theorem run_concat (door : Entrance) (c : ConsoleSettings) (x : Endpoint) (past : List ClientStep)
    (last : ClientStep) :
    x.run door c (past ++ [last]) =
      let before := x.run door c past
      let here := before.1.step door c last
      (here.1, before.2 ++ [here.2]) := by
  induction past generalizing x with
  | nil => rfl
  | cons step rest ih =>
    change (((x.step door c step).1.run door c (rest ++ [last])).1,
      (x.step door c step).2 :: ((x.step door c step).1.run door c (rest ++ [last])).2) = _
    rw [ih]
    rfl

section

variable {x : Endpoint} {client : Nat}

theorem step_asks (x : Endpoint) {target : String} (asks : AsksFor door target) :
    x.step door c (.connect target) = (x.enroll true, .served [greeting]) := by
  simp only [step, show door.pathOf? target = some door.path from asks]
  exact if_pos trivial

theorem step_astray (x : Endpoint) {target other : String}
    (taken : door.pathOf? target = some other) (astray : other ≠ door.path) :
    x.step door c (.connect target) = (x.enroll false, .notFound) := by
  simp only [step, taken]
  exact if_neg astray

theorem step_dropped (x : Endpoint) {target : String} (dropped : door.pathOf? target = none) :
    x.step door c (.connect target) = (x.enroll false, .ended) := by
  simp only [step, dropped]

theorem service_connect (x : Endpoint) (target : String) :
    (x.step door c (.connect target)).1.service = x.service := by
  rcases AsksFor.cases door target with asks | ⟨other, taken, astray⟩ | dropped
  · rw [step_asks x asks]
    rfl
  · rw [step_astray x taken astray]
    rfl
  · rw [step_dropped x dropped]
    rfl

theorem step_text (served : x.serves client) (raw : String) :
    x.step door c (.frame client (.text raw)) =
      let received := x.service.receive c raw
      ({ x with service := received.1 }, .served (received.2.map (·.event))) := if_pos served

theorem step_passedOver (served : x.serves client) {f : ClientFrame} (aside : f.PassedOver) :
    x.step door c (.frame client f) = (x, .served []) := by
  obtain rfl | rfl | rfl := aside <;> exact if_pos served

theorem step_ends (served : x.serves client) {f : ClientFrame} (ends : f.Ends) :
    x.step door c (.frame client f) = (x.dismiss client, .ended) := by
  obtain rfl | rfl | rfl := ends <;> exact if_pos served

theorem step_unserved (unserved : ¬x.serves client) (f : ClientFrame) :
    x.step door c (.frame client f) = (x, .ended) := if_neg unserved

end

theorem serves_enroll (x : Endpoint) (accepted : Bool) (client : Nat) :
    (x.enroll accepted).serves client ↔
      if client = x.clients.length then accepted = true else x.serves client := by
  change (x.clients ++ [accepted])[client]?.getD false ↔ _
  rw [List.getElem?_append]
  rcases lt_trichotomy client x.clients.length with old | rfl | later
  · rw [if_pos old, if_neg old.ne, serves]
  · simp
  · rw [if_neg later.not_gt, if_neg later.ne', serves, List.getElem?_eq_none later.le,
      List.getElem?_eq_none (Nat.sub_pos_of_lt later)]

theorem serves_connect (x : Endpoint) (target : String) (client : Nat) :
    (x.step door c (.connect target)).1.serves client ↔
      if client = x.clients.length then AsksFor door target else x.serves client := by
  rcases AsksFor.cases door target with asks | ⟨other, taken, astray⟩ | dropped
  · rw [step_asks x asks, serves_enroll]
    simp [asks]
  · rw [step_astray x taken astray, serves_enroll]
    simp [not_asksFor_of_taken taken astray]
  · rw [step_dropped x dropped, serves_enroll]
    simp [not_asksFor_of_dropped dropped]

theorem serves_dismiss (x : Endpoint) (other client : Nat) :
    (x.dismiss other).serves client ↔ x.serves client ∧ other ≠ client := by
  by_cases same : other = client
  · subst same
    by_cases known : other < x.clients.length <;> simp [serves, dismiss, known]
  · simp [serves, dismiss, same]

theorem serves_frame (x : Endpoint) (other : Nat) (f : ClientFrame) (client : Nat) :
    (x.step door c (.frame other f)).1.serves client ↔
      x.serves client ∧ ¬(ClientStep.frame other f).Ends client := by
  change _ ↔ x.serves client ∧ ¬(other = client ∧ f.Ends)
  by_cases served : x.serves other
  · rcases f.kinds with ⟨raw, rfl⟩ | aside | ends
    · rw [step_text served]
      simp [ClientFrame.Ends, serves]
    · rw [step_passedOver served aside]
      simp [aside.not_ends]
    · rw [step_ends served ends, serves_dismiss]
      simp [ends]
  · rw [step_unserved served]
    refine (and_iff_left_of_imp ?_).symm
    rintro serves ⟨rfl, -⟩
    exact served serves

theorem length_step (x : Endpoint) (step : ClientStep) :
    (x.step door c step).1.clients.length = x.clients.length + newClient [step] := by
  cases step with
  | connect target =>
    have one_more (accepted : Bool) :
        (x.enroll accepted).clients.length = x.clients.length + 1 := List.length_append
    rcases AsksFor.cases door target with asks | ⟨other, taken, astray⟩ | dropped
    · rw [step_asks x asks]
      exact one_more true
    · rw [step_astray x taken astray]
      exact one_more false
    · rw [step_dropped x dropped]
      exact one_more false
  | frame other f =>
    by_cases served : x.serves other
    · rcases f.kinds with ⟨raw, rfl⟩ | aside | ends
      · rw [step_text served]
        rfl
      · rw [step_passedOver served aside]
        rfl
      · rw [step_ends served ends]
        exact List.length_set
    · rw [step_unserved served]
      rfl

theorem length_clients (door : Entrance) (c : ConsoleSettings) (s : Service)
    (past : List ClientStep) :
    (run door c { service := s } past).1.clients.length = newClient past := by
  induction past using List.reverseRecOn with
  | nil => rfl
  | append_singleton past last ih => rw [run_concat, length_step, ih, newClient_append]

theorem serves_run (door : Entrance) (c : ConsoleSettings) (s : Service) (past : List ClientStep)
    (client : Nat) :
    (run door c { service := s } past).1.serves client ↔ Served door past client := by
  induction past using List.reverseRecOn with
  | nil => simp [run, serves, Served, connection?]
  | append_singleton past last ih =>
    rw [run_concat]
    cases last with
    | connect target => rw [serves_connect, served_connect, length_clients, ih]
    | frame other f => rw [serves_frame, served_frame, ih]

end Endpoint

/-- What a step does to a service, and what the client of the step gets for it, after the steps of
the past. -/
inductive ClientOutcome (door : Entrance) (c : ConsoleSettings) (past : List ClientStep)
    (s : Service) : ClientStep → Service → ClientAnswer → Prop
  | accepted {target : String} (asks : AsksFor door target) :
      ClientOutcome door c past s (.connect target) s (.served [greeting])
  | refused {target other : String} (taken : door.pathOf? target = some other)
      (astray : other ≠ door.path) : ClientOutcome door c past s (.connect target) s .notFound
  | dropped {target : String} (dropped : door.pathOf? target = none) :
      ClientOutcome door c past s (.connect target) s .ended
  | processed {client : Nat} {raw : String} {after : Service} {events : List TimedEvent}
      (served : Served door past client) (received : s.receive c raw = (after, events)) :
      ClientOutcome door c past s (.frame client (.text raw)) after
        (.served (events.map (·.event)))
  | passedOver {client : Nat} {f : ClientFrame} (served : Served door past client)
      (aside : f.PassedOver) : ClientOutcome door c past s (.frame client f) s (.served [])
  | ended {client : Nat} {f : ClientFrame} (served : Served door past client) (ends : f.Ends) :
      ClientOutcome door c past s (.frame client f) s .ended
  | unserved {client : Nat} {f : ClientFrame} (unserved : ¬Served door past client) :
      ClientOutcome door c past s (.frame client f) s .ended

namespace Endpoint

variable {door : Entrance} {c : ConsoleSettings} {past : List ClientStep} {x : Endpoint}

theorem clientOutcome_step (knows : ∀ client, x.serves client ↔ Served door past client)
    (step : ClientStep) :
    ClientOutcome door c past x.service step (x.step door c step).1.service
      (x.step door c step).2 := by
  cases step with
  | connect target =>
    rcases AsksFor.cases door target with asks | ⟨other, taken, astray⟩ | dropped
    · rw [step_asks x asks]
      exact .accepted asks
    · rw [step_astray x taken astray]
      exact .refused taken astray
    · rw [step_dropped x dropped]
      exact .dropped dropped
  | frame client f =>
    by_cases served : x.serves client
    · have in_past := (knows client).mp served
      rcases f.kinds with ⟨raw, rfl⟩ | aside | ends
      · rw [step_text served]
        exact .processed in_past rfl
      · rw [step_passedOver served aside]
        exact .passedOver in_past aside
      · rw [step_ends served ends]
        exact .ended in_past ends
    · rw [step_unserved served]
      exact .unserved (mt (knows client).mpr served)

theorem step_of_clientOutcome (knows : ∀ client, x.serves client ↔ Served door past client)
    {step : ClientStep} {after : Service} {answer : ClientAnswer}
    (outcome : ClientOutcome door c past x.service step after answer) :
    (x.step door c step).1.service = after ∧ (x.step door c step).2 = answer := by
  cases outcome with
  | accepted asks =>
    rw [step_asks x asks]
    exact ⟨rfl, rfl⟩
  | refused taken astray =>
    rw [step_astray x taken astray]
    exact ⟨rfl, rfl⟩
  | dropped dropped =>
    rw [step_dropped x dropped]
    exact ⟨rfl, rfl⟩
  | processed served received =>
    rw [step_text ((knows _).mpr served), received]
    exact ⟨rfl, rfl⟩
  | passedOver served aside =>
    rw [step_passedOver ((knows _).mpr served) aside]
    exact ⟨rfl, rfl⟩
  | ended served ends =>
    rw [step_ends ((knows _).mpr served) ends]
    exact ⟨rfl, rfl⟩
  | unserved unserved =>
    rw [step_unserved (mt (knows _).mp unserved)]
    exact ⟨rfl, rfl⟩

theorem clientOutcome_iff (door : Entrance) (c : ConsoleSettings) (s : Service)
    (past : List ClientStep) (step : ClientStep) (after : Service) (answer : ClientAnswer) :
    let x := run door c { service := s } past
    let next := run door c { service := s } (past ++ [step])
    ClientOutcome door c past x.1.service step after answer ↔
      next.1.service = after ∧ next.2 = x.2 ++ [answer] := by
  intro x next
  have knows := serves_run door c s past
  simp only [x, next, run_concat, List.append_cancel_left_eq, List.cons.injEq, and_true]
  refine ⟨step_of_clientOutcome knows, ?_⟩
  rintro ⟨rfl, rfl⟩
  exact clientOutcome_step knows step

end Endpoint

end VlanTrunking
