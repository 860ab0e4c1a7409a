import VlanTrunking.Proofs.Connections
import VlanTrunking.Proofs.Delivery

/-! The endpoint over whole runs. It gives the session layer the greetings of the clients that it
accepts and the texts of those that it serves, and passes on what comes back to the client in
question. A client that has been turned away or has ended might as well send nothing any more: not
even the others can tell. -/
namespace VlanTrunking

namespace ClientStep

def frameOf? : ClientStep → Option Nat
  | connect _ => none
  | frame client _ => some client

def sender (past : List ClientStep) : ClientStep → Nat
  | connect _ => newClient past
  | frame client _ => client

/-- What the session layer is given for a step. -/
def arrival? (door : Entrance) (past : List ClientStep) : ClientStep → Option Arrival
  | connect target => if AsksFor door target then some ⟨newClient past, .greet⟩ else none
  | frame client (.text raw) => if Served door past client then some ⟨client, .text raw⟩ else none
  | frame _ _ => none

def withPast (past : List ClientStep) : List ClientStep → List (List ClientStep × ClientStep)
  | [] => []
  | step :: rest => (past, step) :: withPast (past ++ [step]) rest

theorem withPast_concat (past steps : List ClientStep) (last : ClientStep) :
    withPast past (steps ++ [last]) = withPast past steps ++ [(past ++ steps, last)] := by
  induction steps generalizing past with
  | nil => simp [withPast]
  | cons step rest ih => simp [withPast, ih]

@[simp] theorem length_withPast (past steps : List ClientStep) :
    (withPast past steps).length = steps.length := by
  induction steps generalizing past with
  | nil => rfl
  | cons step rest ih => simp [withPast, ih]

end ClientStep

def arrivals (door : Entrance) (steps : List ClientStep) : List Arrival :=
  (ClientStep.withPast [] steps).filterMap fun (past, step) => step.arrival? door past

theorem arrivals_concat (door : Entrance) (steps : List ClientStep) (last : ClientStep) :
    arrivals door (steps ++ [last]) = arrivals door steps ++ (last.arrival? door steps).toList := by
  rw [arrivals, ClientStep.withPast_concat, List.filterMap_append]
  cases arrival : last.arrival? door steps <;> simp [arrivals, arrival]

def ClientAnswer.events : ClientAnswer → List ConsoleEvent
  | served events => events
  | notFound => []
  | ended => []

theorem ClientOutcome.session {door : Entrance} {c : ConsoleSettings} {past : List ClientStep}
    {s after : Service} {step : ClientStep} {answer : ClientAnswer}
    (outcome : ClientOutcome door c past s step after answer) :
    (step.arrival? door past = none ∧ after = s ∧ answer.events = []) ∨
      ∃ frame, step.arrival? door past = some ⟨step.sender past, frame⟩ ∧
        after = (Exchange.respond c s frame).1 ∧
        answer.events = (Exchange.respond c s frame).2.map (·.event) := by
  cases outcome with
  | accepted asks => exact .inr ⟨.greet, if_pos asks, rfl, rfl⟩
  | refused taken astray => exact .inl ⟨if_neg (not_asksFor_of_taken taken astray), rfl, rfl⟩
  | dropped dropped => exact .inl ⟨if_neg (not_asksFor_of_dropped dropped), rfl, rfl⟩
  | @processed client raw _ _ served received =>
    refine .inr ⟨.text raw, if_pos served, ?_, ?_⟩
    all_goals rw [Exchange.respond, received]
    rfl
  | passedOver _ aside => obtain rfl | rfl | rfl := aside <;> exact .inl ⟨rfl, rfl, rfl⟩
  | ended _ ends => obtain rfl | rfl | rfl := ends <;> exact .inl ⟨rfl, rfl, rfl⟩
  | @unserved client f unserved =>
    refine .inl ⟨?_, rfl, rfl⟩
    cases f with
    | text raw => exact if_neg unserved
    | binary | ping | pong | close | lost | illegal => rfl

namespace Exchange

def mail (arrivals : List Arrival) (deliveries : List Delivery) : List (Nat × ConsoleEvent) :=
  (arrivals.zip deliveries).flatMap fun (arrival, delivery) =>
    delivery.accepted.map fun e => (arrival.session, e.event)

theorem length_deliveries (c : ConsoleSettings) (x : Exchange) (arrivals : List Arrival) :
    (x.run c arrivals).2.length = arrivals.length := by
  induction arrivals generalizing x with
  | nil => rfl
  | cons a rest ih => exact congrArg (· + 1) (ih _)

variable (c : ConsoleSettings) (s : Service) (arrivals : List Arrival)

theorem run_concat (last : Arrival) :
    run c { service := s, sink := .limitless } (arrivals ++ [last]) =
      let before := run c { service := s, sink := .limitless } arrivals
      let here := respond c before.1.service last.frame
      (⟨here.1, .limitless⟩, before.2 ++ [⟨here.2, .limitless, true⟩]) := by
  simp only [run_eq, Sink.deliverAll_limitless, List.map_append, List.map_cons, List.map_nil,
    responses_concat]

theorem mail_concat (last : Arrival) :
    let before := run c { service := s, sink := .limitless } arrivals
    mail (arrivals ++ [last])
        (run c { service := s, sink := .limitless } (arrivals ++ [last])).2 =
      mail arrivals before.2 ++
        (respond c before.1.service last.frame).2.map fun e => (last.session, e.event) := by
  intro before
  rw [mail, run_concat, List.zip_append (length_deliveries c _ arrivals).symm, List.flatMap_append]
  simp [mail, before]

theorem service_of_texts :
    (run c { service := s, sink := .limitless } (arrivals.filter (·.frame ≠ .greet))).1.service =
      (run c { service := s, sink := .limitless } arrivals).1.service := by
  induction arrivals using List.reverseRecOn with
  | nil => rfl
  | append_singleton arrivals last ih =>
    rw [List.filter_append, run_concat]
    obtain ⟨session, frame⟩ := last
    cases frame with
    | greet => simpa [respond] using ih
    | text raw =>
      have kept : [Arrival.mk session (.text raw)].filter (·.frame ≠ .greet) =
          [⟨session, .text raw⟩] := rfl
      rw [kept, run_concat]
      exact congrArg (fun s => (respond c s (.text raw)).1) ih

end Exchange

namespace Endpoint

variable {door : Entrance} {c : ConsoleSettings}

def mail (door : Entrance) (c : ConsoleSettings) (x : Endpoint) (steps : List ClientStep) :
    List (Nat × ConsoleEvent) :=
  ((ClientStep.withPast [] steps).zip (x.run door c steps).2).flatMap
    fun ((past, step), answer) => answer.events.map (step.sender past, ·)

theorem length_answers (door : Entrance) (c : ConsoleSettings) (x : Endpoint)
    (steps : List ClientStep) : (x.run door c steps).2.length = steps.length := by
  induction steps generalizing x with
  | nil => rfl
  | cons step rest ih => exact congrArg (· + 1) (ih _)

theorem mail_concat (door : Entrance) (c : ConsoleSettings) (x : Endpoint)
    (steps : List ClientStep) (last : ClientStep) :
    mail door c x (steps ++ [last]) =
      mail door c x steps ++
        ((x.run door c steps).1.step door c last).2.events.map (last.sender steps, ·) := by
  simp only [mail]
  rw [run_concat, ClientStep.withPast_concat, List.zip_append (by simp [length_answers])]
  simp

theorem run_session (door : Entrance) (c : ConsoleSettings) (s : Service)
    (steps : List ClientStep) :
    let whole := Exchange.run c { service := s, sink := .limitless } (arrivals door steps)
    (run door c { service := s } steps).1.service = whole.1.service ∧
      mail door c { service := s } steps = Exchange.mail (arrivals door steps) whole.2 := by
  induction steps using List.reverseRecOn with
  | nil => exact ⟨rfl, rfl⟩
  | append_singleton steps last ih =>
    obtain ⟨service, received⟩ := ih
    -- The mail so far and the next answer come from one state, so one frame of the session layer at
    -- most has to be matched.
    have outcome := (clientOutcome_step (c := c) (serves_run door c s steps) last).session
    rw [run_concat, mail_concat, arrivals_concat, received]
    obtain ⟨arrival, idle, silent⟩ | ⟨frame, arrival, after, events⟩ := outcome
    · rw [arrival, silent]
      simpa using idle.trans service
    · rw [service] at after events
      rw [arrival, Option.toList_some, events]
      refine ⟨?_, ?_⟩
      · rw [Exchange.run_concat]
        exact after
      · rw [Exchange.mail_concat, List.map_map]
        rfl

section

variable {client : Nat} {x y : Endpoint}

theorem step_congr (door : Entrance) (c : ConsoleSettings) {step : ClientStep}
    (service : y.service = x.service)
    (serves : ∀ client, step.frameOf? = some client → (y.serves client ↔ x.serves client)) :
    (y.step door c step).1.service = (x.step door c step).1.service ∧
      (y.step door c step).2 = (x.step door c step).2 := by
  cases step with
  | connect target =>
    refine ⟨?_, ?_⟩
    · rw [service_connect, service_connect, service]
    · rcases AsksFor.cases door target with asks | ⟨other, taken, astray⟩ | dropped
      · rw [step_asks x asks, step_asks y asks]
      · rw [step_astray x taken astray, step_astray y taken astray]
      · rw [step_dropped x dropped, step_dropped y dropped]
  | frame client f =>
    have same := serves client rfl
    by_cases served : x.serves client
    · rcases f.kinds with ⟨raw, rfl⟩ | aside | ends
      · rw [step_text served, step_text (same.mpr served), service]
        exact ⟨rfl, rfl⟩
      · rw [step_passedOver served aside, step_passedOver (same.mpr served) aside]
        exact ⟨service, rfl⟩
      · rw [step_ends served ends, step_ends (same.mpr served) ends]
        exact ⟨service, rfl⟩
    · rw [step_unserved served, step_unserved (mt same.mp served)]
      exact ⟨service, rfl⟩

/-- Two endpoints that are alike to everyone but one client, who is known to both and not served by
the first. -/
structure AlikeWithout (client : Nat) (x y : Endpoint) : Prop where
  known : client < x.clients.length
  gone : ¬x.serves client
  service : y.service = x.service
  length : y.clients.length = x.clients.length
  serves (other : Nat) : other ≠ client → (y.serves other ↔ x.serves other)

theorem alikeWithout_dismiss (serves : x.serves client) :
    AlikeWithout client (x.dismiss client) x := by
  have known : client < x.clients.length := by
    by_contra unknown
    rw [Endpoint.serves, List.getElem?_eq_none (not_lt.mp unknown)] at serves
    cases serves
  refine ⟨?_, ?_, rfl, List.length_set.symm, ?_⟩
  · rwa [dismiss, List.length_set]
  · rw [serves_dismiss]
    exact fun both => both.2 rfl
  · intro other ne
    rw [serves_dismiss, and_iff_left ne.symm]

theorem alikeWithout_refuse (c : ConsoleSettings) (x : Endpoint) {target : String}
    (astray : ¬AsksFor door target) (other : String) :
    AlikeWithout x.clients.length (x.step door c (.connect target)).1
      (x.step door c (.connect other)).1 := by
  refine ⟨?_, ?_, ?_, ?_, ?_⟩
  · rw [length_step]
    exact Nat.lt_succ_self _
  · rw [serves_connect, if_pos rfl]
    exact astray
  · rw [service_connect, service_connect]
  · rw [length_step, length_step]
    rfl
  · intro third ne
    rw [serves_connect, serves_connect, if_neg ne, if_neg ne]

theorem AlikeWithout.step_other (door : Entrance) (c : ConsoleSettings) {step : ClientStep}
    (alike : AlikeWithout client x y) (other : step.frameOf? ≠ some client) :
    AlikeWithout client (x.step door c step).1 (y.step door c step).1 ∧
      (y.step door c step).2 = (x.step door c step).2 := by
  have serves : ∀ third, step.frameOf? = some third → (y.serves third ↔ x.serves third) := by
    intro third own
    exact alike.serves third fun same => other (same ▸ own)
  obtain ⟨service, answer⟩ := step_congr door c alike.service serves
  refine ⟨⟨?_, ?_, service, ?_, ?_⟩, answer⟩
  · rw [length_step]
    exact Nat.lt_add_right _ alike.known
  · cases step with
    | connect target =>
      rw [serves_connect, if_neg alike.known.ne]
      exact alike.gone
    | frame third f =>
      rw [serves_frame]
      exact mt And.left alike.gone
  · rw [length_step, length_step, alike.length]
  · intro third ne
    cases step with
    | connect target => rw [serves_connect, serves_connect, alike.length, alike.serves third ne]
    | frame fourth f => rw [serves_frame, serves_frame, alike.serves third ne]

theorem AlikeWithout.step_own {step : ClientStep} (alike : AlikeWithout client x y)
    (own : step.frameOf? = some client) :
    AlikeWithout client (x.step door c step).1 y := by
  cases step with
  | connect target => cases own
  | frame third f =>
    obtain rfl := Option.some.inj own
    rw [step_unserved alike.gone]
    exact alike

def transcript (door : Entrance) (c : ConsoleSettings) (x : Endpoint) (steps : List ClientStep) :
    List (ClientStep × ClientAnswer) :=
  steps.zip (x.run door c steps).2

@[simp] theorem run_cons (door : Entrance) (c : ConsoleSettings) (x : Endpoint) (step : ClientStep)
    (rest : List ClientStep) :
    (x.run door c (step :: rest)).1 = ((x.step door c step).1.run door c rest).1 := rfl

@[simp] theorem transcript_cons (door : Entrance) (c : ConsoleSettings) (x : Endpoint)
    (step : ClientStep) (rest : List ClientStep) :
    x.transcript door c (step :: rest) =
      (step, (x.step door c step).2) :: (x.step door c step).1.transcript door c rest := rfl

theorem AlikeWithout.run (alike : AlikeWithout client x y) (steps : List ClientStep) :
    let others := steps.filter (·.frameOf? ≠ some client)
    AlikeWithout client (x.run door c steps).1 (y.run door c others).1 ∧
      (x.transcript door c steps).filter (·.1.frameOf? ≠ some client) =
        y.transcript door c others := by
  induction steps generalizing x y with
  | nil => exact ⟨alike, rfl⟩
  | cons step rest ih =>
    by_cases own : step.frameOf? = some client
    · simpa [own] using ih (alike.step_own own)
    · obtain ⟨next, answer⟩ := alike.step_other door c own
      simpa [own, answer] using ih next

end

end Endpoint

/-- A client that has connected and is not served, because it was turned away or has ended. -/
def Gone (door : Entrance) (past : List ClientStep) (client : Nat) : Prop :=
  client < newClient past ∧ ¬Served door past client

instance (door : Entrance) (past : List ClientStep) (client : Nat) :
    Decidable (Gone door past client) :=
  inferInstanceAs (Decidable (_ ∧ _))

theorem Gone.concat {door : Entrance} {past : List ClientStep} {client : Nat}
    (gone : Gone door past client) (last : ClientStep) : Gone door (past ++ [last]) client := by
  obtain ⟨known, unserved⟩ := gone
  refine ⟨?_, ?_⟩
  · rw [newClient_append]
    exact Nat.lt_add_right _ known
  · cases last with
    | connect target => rwa [served_connect, if_neg known.ne]
    | frame other f =>
      rw [served_frame]
      exact mt And.left unserved

theorem Gone.append {door : Entrance} {past : List ClientStep} {client : Nat}
    (gone : Gone door past client) (more : List ClientStep) : Gone door (past ++ more) client := by
  induction more using List.reverseRecOn with
  | nil => rwa [List.append_nil]
  | append_singleton more last ih =>
    rw [← List.append_assoc]
    exact ih.concat last

/-- Two pasts that differ in their last step at most, which takes one client away in the first of
them: it ends the client, where the other past goes without the step, or it turns the client away,
where the other past has it connect in some way. -/
inductive PartedAt (door : Entrance) (client : Nat) : List ClientStep → List ClientStep → Prop
  | ended {past : List ClientStep} {last : ClientStep} (served : Served door past client)
      (ends : last.Ends client) : PartedAt door client (past ++ [last]) past
  | refused {past : List ClientStep} {target other : String} (new : client = newClient past)
      (astray : ¬AsksFor door target) :
      PartedAt door client (past ++ [.connect target]) (past ++ [.connect other])

theorem PartedAt.alike {door : Entrance} {client : Nat} {parted kept : List ClientStep}
    (at_end : PartedAt door client parted kept) (c : ConsoleSettings) (s : Service) :
    Endpoint.AlikeWithout client (Endpoint.run door c { service := s } parted).1
      (Endpoint.run door c { service := s } kept).1 := by
  cases at_end with
  | @ended past last served ends =>
    rw [Endpoint.run_concat]
    have serves := (Endpoint.serves_run door c s _ client).mpr served
    cases last with
    | connect target => cases ends
    | frame other f =>
      obtain ⟨rfl, ends⟩ := ends
      simpa only [Endpoint.step_ends serves ends] using Endpoint.alikeWithout_dismiss serves
  | refused new astray =>
    rw [Endpoint.run_concat, Endpoint.run_concat, new, ← Endpoint.length_clients door c s]
    exact Endpoint.alikeWithout_refuse c _ astray _

/-- The life of the clients of an endpoint. Each step does what the rules say, which serve a client
from when it asks for the path until it ends; the service and all mail come from the session layer,
which is given the texts of the clients served, in order; a client that is gone stays gone, and from
when it goes all others fare as if it had fallen silent. A target in origin form asks for the path
if this is what it has before any query and fragment. -/
theorem connection_life_cycle (door : Entrance) (c : ConsoleSettings) (s : Service) :
    let run := Endpoint.run door c { service := s }
    let exchange := Exchange.run c { service := s, sink := .limitless }
    (door.Documented → ∀ target, target.toList.head? = some '/' → (door.pathOf? target).isSome →
      (AsksFor door target ↔ PathOf door.path target)) ∧
    (∀ past step after answer,
      ClientOutcome door c past (run past).1.service step after answer ↔
        (run (past ++ [step])).1.service = after ∧
          (run (past ++ [step])).2 = (run past).2 ++ [answer]) ∧
    (∀ steps,
      (run steps).1.service =
        (exchange ((arrivals door steps).filter (·.frame ≠ .greet))).1.service ∧
      Endpoint.mail door c { service := s } steps =
        Exchange.mail (arrivals door steps) (exchange (arrivals door steps)).2) ∧
    (∀ past more client, Gone door past client → Gone door (past ++ more) client) ∧
    ∀ client parted kept, PartedAt door client parted kept → ∀ more,
      let others := more.filter (·.frameOf? ≠ some client)
      let x := (run parted).1
      let y := (run kept).1
      (x.transcript door c more).filter (·.1.frameOf? ≠ some client) =
          y.transcript door c others ∧
        (x.run door c more).1.service = (y.run door c others).1.service ∧
        ∀ other, other ≠ client →
          ((x.run door c more).1.serves other ↔ (y.run door c others).1.serves other) := by
  intro run exchange
  refine ⟨fun documented target => asksFor_iff_of_origin documented,
    Endpoint.clientOutcome_iff door c s, ?_, fun _ more _ gone => gone.append more, ?_⟩
  · intro steps
    obtain ⟨service, received⟩ := Endpoint.run_session door c s steps
    exact ⟨service.trans (Exchange.service_of_texts c s _).symm, received⟩
  · intro client parted kept at_end more others x y
    obtain ⟨alike, same⟩ := (at_end.alike c s).run more
    exact ⟨same, alike.service.symm, fun other ne => (alike.serves other ne).symm⟩

def visits : List ClientStep :=
  [.connect "/ws?tab=1", .connect "/index.html", .connect "/ws#console",
    .frame 0 (.text "\x7b\"command\":\"vlan 10\",\"node\":\"SW1\"\x7d"), .frame 0 .binary]

def visitsLater : List ClientStep :=
  [.frame 0 (.text "\x7b\"command\":\"vlan 20\",\"node\":\"SW1\"\x7d"),
    .frame 1 (.text "\x7b\"command\":\"vlan 30\",\"node\":\"SW1\"\x7d"),
    .frame 2 (.text "\x7b\"command\":\"vlan 40\",\"node\":\"SW1\"\x7d"), .frame 2 .lost]

theorem connection_life_cycle_visits :
    let run := Endpoint.run "/ws" {} {}
    let closed := visits ++ [.frame 0 .close]
    PathOf "/ws" "/ws?tab=1" ∧ Served "/ws" visits 0 ∧ (run closed).2 = (run visits).2 ++ [.ended] ∧
      Gone "/ws" (closed ++ visitsLater) 0 ∧
      ((run closed).1.transcript "/ws" {} visitsLater).filter (·.1.frameOf? ≠ some 0) =
        (run visits).1.transcript "/ws" {} (visitsLater.filter (·.frameOf? ≠ some 0)) ∧
      ((run (closed ++ visitsLater)).1.service.device "SW1").revision = 2 := by
  intro run closed
  obtain ⟨asks, rules, -, stays, alone⟩ := connection_life_cycle "/ws" {} {}
  have bare : PathOf "/ws" "/ws?tab=1" :=
    (asks (Entrance.documented_ofPath "/ws") "/ws?tab=1" rfl rfl).mp (by decide)
  have served : Served "/ws" visits 0 := by decide
  have ends : ClientStep.Ends 0 (.frame 0 .close) := by decide
  have step := (rules visits _ _ _).mp (.ended served ends.2)
  exact ⟨bare, served, step.2, stays closed visitsLater 0 (by decide),
    (alone 0 closed visits (.ended served ends) visitsLater).1, by decide⟩

end VlanTrunking
