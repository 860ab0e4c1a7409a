import Mathlib.Data.List.Forall2
import VlanTrunking.Console.Session

/-! Frames and sinks apart. What frames do to the service, and the events that they call for, do not
depend on the sink through which the events leave; a sink only decides how many of them leave. One
that fails cuts the events of a run short, and changes nothing else. -/
namespace VlanTrunking

namespace Exchange

/-- What frames do to the service one after the other, and the events that each of them calls for.
-/
def responses (c : ConsoleSettings) (s : Service) :
    List InboundFrame → Service × List (List TimedEvent)
  | [] => (s, [])
  | frame :: rest =>
    let (s, events) := respond c s frame
    let (s, later) := responses c s rest
    (s, events :: later)

end Exchange

namespace Sink

def deliverAll (sink : Sink) : List (List TimedEvent) → Sink × List Delivery
  | [] => (sink, [])
  | events :: rest =>
    let delivery := sink.deliver events
    let (sink, later) := delivery.sink.deliverAll rest
    (sink, delivery :: later)

end Sink

namespace Exchange

theorem responses_concat (c : ConsoleSettings) (s : Service) (frames : List InboundFrame)
    (last : InboundFrame) :
    responses c s (frames ++ [last]) =
      let before := responses c s frames
      let here := respond c before.1 last
      (here.1, before.2 ++ [here.2]) := by
  induction frames generalizing s with
  | nil => rfl
  | cons frame rest ih =>
    change ((responses c (respond c s frame).1 (rest ++ [last])).1,
      (respond c s frame).2 :: (responses c (respond c s frame).1 (rest ++ [last])).2) = _
    rw [ih]
    rfl

theorem run_eq (c : ConsoleSettings) (x : Exchange) (arrivals : List Arrival) :
    x.run c arrivals =
      let answered := responses c x.service (arrivals.map (·.frame))
      let delivered := x.sink.deliverAll answered.2
      (⟨answered.1, delivered.1⟩, delivered.2) := by
  induction arrivals generalizing x with
  | nil => rfl
  | cons a rest ih =>
    have rest_of_run := ih (x.step c a).1
    change ((run c (x.step c a).1 rest).1, (x.step c a).2 :: (run c (x.step c a).1 rest).2) = _
    rw [rest_of_run]
    rfl

theorem getElem_responses (c : ConsoleSettings) (s : Service) (frames : List InboundFrame)
    (k : Nat) :
    (responses c s frames).2[k]? =
      frames[k]?.map fun frame => (respond c (responses c s (frames.take k)).1 frame).2 := by
  induction frames generalizing s k with
  | nil => rfl
  | cons frame rest ih =>
    cases k with
    | zero => rfl
    | succ k => exact ih _ k

end Exchange

namespace Sink

def limitless : Sink := ⟨none⟩

def limited (n : Nat) : Sink := ⟨some n⟩

theorem deliver_limitless (events : List TimedEvent) :
    limitless.deliver events = ⟨events, limitless, true⟩ := by
  induction events with
  | nil => rfl
  | cons e rest ih =>
    change Delivery.mk (e :: (limitless.deliver rest).accepted) (limitless.deliver rest).sink
      (limitless.deliver rest).complete = _
    rw [ih]

theorem deliver_limited (n : Nat) (events : List TimedEvent) :
    (limited n).deliver events =
      ⟨events.take n, limited (n - events.length), decide (events.length ≤ n)⟩ := by
  induction events generalizing n with
  | nil => simp [deliver]
  | cons e rest ih =>
    cases n with
    | zero => simp [deliver, limited, accept]
    | succ n =>
      change Delivery.mk (e :: ((limited n).deliver rest).accepted)
        ((limited n).deliver rest).sink ((limited n).deliver rest).complete = _
      rw [ih]
      simp

theorem deliverAll_limitless (frames : List (List TimedEvent)) :
    limitless.deliverAll frames =
      (limitless, frames.map fun events => ⟨events, limitless, true⟩) := by
  induction frames with
  | nil => rfl
  | cons events rest ih =>
    rw [deliverAll, deliver_limitless]
    simp [ih]

@[simp] theorem deliverAll_limited_cons (n : Nat) (events : List TimedEvent)
    (rest : List (List TimedEvent)) :
    ((limited n).deliverAll (events :: rest)).2 =
      (limited n).deliver events :: ((limited (n - events.length)).deliverAll rest).2 := by
  rw [deliverAll, deliver_limited]

theorem getElem_deliverAll (n : Nat) (frames : List (List TimedEvent)) (k : Nat) :
    ((limited n).deliverAll frames).2[k]? =
      frames[k]?.map fun events =>
        (limited (n - (frames.take k).flatten.length)).deliver events := by
  induction frames generalizing n k with
  | nil => rfl
  | cons events rest ih =>
    rw [deliverAll_limited_cons]
    cases k with
    | zero => simp
    | succ k => simp [ih, Nat.sub_sub]

theorem accepted_deliverAll (n : Nat) (frames : List (List TimedEvent)) :
    ((limited n).deliverAll frames).2.flatMap (·.accepted) = frames.flatten.take n := by
  induction frames generalizing n with
  | nil => simp [deliverAll]
  | cons events rest ih =>
    rw [deliverAll_limited_cons, List.flatMap_cons, ih, deliver_limited, List.flatten_cons,
      List.take_append]

end Sink

theorem Exchange.run_limitless (c : ConsoleSettings) (s : Service) (arrivals : List Arrival) :
    let whole := run c { service := s, sink := .limitless } arrivals
    (∀ delivery ∈ whole.2, delivery.complete) ∧
      (whole.1.service, whole.2.map (·.accepted)) = responses c s (arrivals.map (·.frame)) := by
  intro whole
  simp only [whole, run_eq, Sink.deliverAll_limitless, List.map_map]
  exact ⟨by simp, Prod.ext rfl (List.map_id _)⟩

/-- A delivery next to the one that a sink without a limit makes of the same frame: it takes the
events up to some point, and fails if that is not all of them. -/
structure Delivery.CutFrom (whole cut : Delivery) : Prop where
  accepted : cut.accepted <+: whole.accepted
  failed : cut.complete = false ↔ cut.accepted.length < whole.accepted.length

namespace Sink

theorem cutFrom_deliver (n : Nat) (events : List TimedEvent) :
    Delivery.CutFrom ⟨events, limitless, true⟩ ((limited n).deliver events) := by
  rw [deliver_limited]
  refine ⟨List.take_prefix n events, ?_⟩
  simp only [decide_eq_false_iff_not, List.length_take]
  omega

theorem cutFrom_deliverAll (n : Nat) (frames : List (List TimedEvent)) :
    List.Forall₂ Delivery.CutFrom (limitless.deliverAll frames).2
      ((limited n).deliverAll frames).2 := by
  rw [deliverAll_limitless]
  induction frames generalizing n with
  | nil => exact .nil
  | cons events rest ih =>
    rw [deliverAll_limited_cons]
    exact .cons (cutFrom_deliver n events) (ih _)

theorem accepted_of_exhausted (frames : List (List TimedEvent)) :
    ∀ delivery ∈ ((limited 0).deliverAll frames).2, delivery.accepted = [] := by
  induction frames with
  | nil => simp [deliverAll]
  | cons events rest ih =>
    rw [deliverAll_limited_cons, Nat.zero_sub, List.forall_mem_cons]
    refine ⟨?_, ih⟩
    rw [deliver_limited, List.take_zero]

theorem nothing_after_failure (n : Nat) (frames : List (List TimedEvent)) :
    ((limited n).deliverAll frames).2.Pairwise fun delivery later =>
      delivery.complete = false → later.accepted = [] := by
  induction frames generalizing n with
  | nil => exact .nil
  | cons events rest ih =>
    rw [deliverAll_limited_cons, List.pairwise_cons]
    refine ⟨fun later known failed => ?_, ih _⟩
    have exhausted : n - events.length = 0 := by
      rw [deliver_limited] at failed
      simp only [decide_eq_false_iff_not] at failed
      omega
    rw [exhausted] at known
    exact accepted_of_exhausted rest later known

end Sink

def Service.AnswersPing (c : ConsoleSettings) (s : Service) (raw origin target : String) : Prop :=
  ∃ r, CommandRequest.decode? raw = some r ∧ r.deviceId c.defaultNode = origin ∧
    (s.route origin r.command).2 = .ping target

theorem Service.AnswersPing.receive {c : ConsoleSettings} {s : Service}
    {raw origin target : String} (ping : s.AnswersPing c raw origin target) :
    (s.receive c raw).2 = pingScript c.timing origin target := by
  obtain ⟨r, decoded, rfl, routed⟩ := ping
  simp only [Service.receive, decoded, Service.answer, routed, Routed.events]

/-- A sink that fails after some number of events lets through exactly that many of the events of
the run, a frame fails exactly when an event of it does not get through, and the service goes
through the same states as if nothing had failed. A ping that is cut off has shown less than its
script. -/
theorem failing_sink_truncates (c : ConsoleSettings) (s : Service) (arrivals : List Arrival)
    (n : Nat) :
    let cut := Exchange.run c { service := s, sink := .limited n }
    let whole := Exchange.run c { service := s, sink := .limitless }
    (∀ k, (cut (arrivals.take k)).1.service = (whole (arrivals.take k)).1.service) ∧
    (cut arrivals).2.flatMap (·.accepted) = ((whole arrivals).2.flatMap (·.accepted)).take n ∧
    List.Forall₂ Delivery.CutFrom (whole arrivals).2 (cut arrivals).2 ∧
    ((cut arrivals).2.Pairwise fun delivery later =>
      delivery.complete = false → later.accepted = []) ∧
    ∀ k session raw origin target, arrivals[k]? = some ⟨session, .text raw⟩ →
      (whole (arrivals.take k)).1.service.AnswersPing c raw origin target →
      ∃ delivery, (cut arrivals).2[k]? = some delivery ∧
        (delivery.complete = false →
          ∃ shown < 3, delivery.accepted = (pingScript c.timing origin target).take shown) := by
  intro cut whole
  simp only [cut, whole, Exchange.run_eq]
  generalize frames_eq : arrivals.map (·.frame) = frames
  refine ⟨fun k => trivial, ?_, Sink.cutFrom_deliverAll n _, Sink.nothing_after_failure n _, ?_⟩
  · rw [Sink.accepted_deliverAll, Sink.deliverAll_limitless, List.flatMap_map, List.flatMap_id']
  · intro k session raw origin target arrived ping
    let room := n - ((Exchange.responses c s frames).2.take k).flatten.length
    have called_for : (Exchange.responses c s frames).2[k]? =
        some (pingScript c.timing origin target) := by
      rw [← ping.receive, Exchange.getElem_responses, ← frames_eq, List.getElem?_map, arrived,
        List.map_take]
      rfl
    refine ⟨(Sink.limited room).deliver (pingScript c.timing origin target), ?_, ?_⟩
    · rw [Sink.getElem_deliverAll, called_for]
      rfl
    · rw [Sink.deliver_limited]
      intro failed
      exact ⟨room, by simpa [pingScript] using failed, rfl⟩

def cutOff : List Arrival :=
  [⟨0, .greet⟩, ⟨0, .text "\x7b\"command\":\"ping R2\"\x7d"⟩,
    ⟨1, .text "\x7b\"command\":\"ping\",\"node\":\"SW1\"\x7d"⟩,
    ⟨0, .text "\x7b\"command\":\"vlan 10\",\"node\":\"SW1\"\x7d"⟩]

theorem failing_sink_truncates_cutOff :
    let cut := Exchange.run {} { sink := .limited 5 } cutOff
    let whole := Exchange.run {} { sink := .limitless } cutOff
    cut.2.map (·.complete) = [true, true, false, false] ∧
      cut.2.flatMap (·.accepted) = (whole.2.flatMap (·.accepted)).take 5 ∧
      (∃ delivery, cut.2[2]? = some delivery ∧
        ∃ shown < 3, delivery.accepted = (pingScript {} "SW1" "R1").take shown) ∧
      cut.1.service = whole.1.service ∧ (cut.1.service.device "SW1").revision = 1 := by
  intro cut whole
  have completed : cut.2.map (·.complete) = [true, true, false, false] := by decide
  obtain ⟨states, shown, -, -, ping⟩ := failing_sink_truncates {} {} cutOff 5
  obtain ⟨delivery, second, script⟩ := ping 2 1 _ "SW1" "R1" rfl
    ⟨{ command := "ping", node := some "SW1" }, by decide, by decide, by decide⟩
  have failed : delivery.complete = false := by
    have third := congrArg (·[2]?) completed
    simp only [List.getElem?_map, cut] at third
    rw [second] at third
    exact Option.some.inj third
  exact ⟨completed, shown, ⟨delivery, second, script failed⟩, states 4, by decide⟩

end VlanTrunking
