import Mathlib.Data.List.Induction
import VlanTrunking.Proofs.Delivery
import VlanTrunking.Proofs.Routing

/-! Sessions against the lines that they carry. What a frame comes to is told by rules, which
mention the request in it, the switch it is for and what the router makes of its command, and
nothing of the session it came through. Frames of any number of sessions are then as good as one list
of texts, also when the events of one leave while the next are already being taken. -/
namespace VlanTrunking

/-- The switch of a request is the one that its node names, blanks around the name aside. Without a
node, or with a blank one, it is the default. -/
inductive CommandRequest.IsFor (default : String) (r : CommandRequest) : String → Prop
  | named {node : String} (given : r.node = some node) (nonblank : Text.trim node ≠ "") :
      IsFor default r (Text.trim node)
  | unnamed (blank : ∀ node, r.node = some node → Text.trim node = "") : IsFor default r default

namespace CommandRequest

variable {default : String} {r : CommandRequest}

theorem deviceId_of_named {node : String} (given : r.node = some node)
    (nonblank : Text.trim node ≠ "") : r.deviceId default = Text.trim node := by
  simp [deviceId, given, nonblank]

theorem deviceId_of_blank (blank : ∀ node, r.node = some node → Text.trim node = "") :
    r.deviceId default = default := by
  cases given : r.node with
  | none => simp [deviceId, given]
  | some node => simp [deviceId, given, blank node given]

theorem isFor_iff {device : String} : r.IsFor default device ↔ r.deviceId default = device := by
  constructor
  · intro isFor
    cases isFor with
    | named given nonblank => exact deviceId_of_named given nonblank
    | unnamed blank => exact deviceId_of_blank blank
  · rintro rfl
    by_cases blank : ∀ node, r.node = some node → Text.trim node = ""
    · rw [deviceId_of_blank blank]
      exact .unnamed blank
    · push Not at blank
      obtain ⟨node, given, nonblank⟩ := blank
      rw [deviceId_of_named given nonblank]
      exact .named given nonblank

end CommandRequest

inductive TextOutcome (c : ConsoleSettings) (s : Service) (raw : String) :
    Service → List TimedEvent → Prop
  | unreadable (undecoded : CommandRequest.decode? raw = none) :
      TextOutcome c s raw s [⟨0, .log ("Invalid payload: " ++ raw) none⟩]
  | replied {r : CommandRequest} {device text : String} {after : Service}
      (decoded : CommandRequest.decode? raw = some r) (isFor : r.IsFor c.defaultNode device)
      (routed : s.route device r.command = (after, .reply text)) :
      TextOutcome c s raw after [⟨0, .log text (some device)⟩]
  | empty {r : CommandRequest} {device : String}
      (decoded : CommandRequest.decode? raw = some r) (isFor : r.IsFor c.defaultNode device)
      (routed : (s.route device r.command).2 = .rejected .emptyCommand) :
      TextOutcome c s raw s [⟨0, .log "Empty command" none⟩]
  | rejected {r : CommandRequest} {device : String} {e : CommandError}
      (decoded : CommandRequest.decode? raw = some r) (isFor : r.IsFor c.defaultNode device)
      (routed : (s.route device r.command).2 = .rejected e) (nonempty : e ≠ .emptyCommand) :
      TextOutcome c s raw s [⟨0, .log e.message (some device)⟩]
  | pinged {r : CommandRequest} {device target : String}
      (decoded : CommandRequest.decode? raw = some r) (isFor : r.IsFor c.defaultNode device)
      (routed : (s.route device r.command).2 = .ping target) :
      TextOutcome c s raw s
        [⟨0, .log ("Pinging " ++ target ++ "...") (some device)⟩,
          ⟨c.timing.echoDelay, .flow device target "ICMP"⟩,
          ⟨c.timing.echoDelay + c.timing.replyDelay,
            .log ("Reply received from " ++ target ++ " ✅") (some device)⟩]

namespace Service

variable {c : ConsoleSettings} {s after : Service} {raw : String} {events : List TimedEvent}

theorem receive_of_undecoded (undecoded : CommandRequest.decode? raw = none) :
    s.receive c raw = (s, [⟨0, .log ("Invalid payload: " ++ raw) none⟩]) := by
  simp only [receive, undecoded]
  rfl

theorem receive_of_decoded {r : CommandRequest} {device : String}
    (decoded : CommandRequest.decode? raw = some r) (isFor : r.IsFor c.defaultNode device) :
    s.receive c raw =
      ((s.route device r.command).1, (s.route device r.command).2.events c.timing device) := by
  simp only [receive, decoded, answer, CommandRequest.isFor_iff.mp isFor]

theorem textOutcome_receive (c : ConsoleSettings) (s : Service) (raw : String) :
    TextOutcome c s raw (s.receive c raw).1 (s.receive c raw).2 := by
  cases decoded : CommandRequest.decode? raw with
  | none =>
    rw [receive_of_undecoded decoded]
    exact .unreadable decoded
  | some r =>
    obtain ⟨device, isFor⟩ : ∃ device, r.IsFor c.defaultNode device :=
      ⟨_, CommandRequest.isFor_iff.mpr rfl⟩
    rw [receive_of_decoded decoded isFor]
    have idle : (∀ text, (s.route device r.command).2 ≠ .reply text) →
        (s.route device r.command).1 = s := route_of_unanswered
    rcases routed : s.route device r.command with ⟨after, routed | e | target⟩
    · exact .replied decoded isFor routed
    · obtain rfl : after = s := by simpa [routed] using idle
      have rejected := congrArg Prod.snd routed
      by_cases empty : e = .emptyCommand
      · subst empty
        exact .empty decoded isFor rejected
      · have outcome := TextOutcome.rejected decoded isFor rejected empty
        simpa [Routed.events, empty, ConsoleEvent.logFrom] using outcome
    · obtain rfl : after = s := by simpa [routed] using idle
      exact .pinged decoded isFor (congrArg Prod.snd routed)

theorem receive_of_textOutcome (outcome : TextOutcome c s raw after events) :
    s.receive c raw = (after, events) := by
  cases outcome with
  | unreadable undecoded => exact receive_of_undecoded undecoded
  | replied decoded isFor routed =>
    rw [receive_of_decoded decoded isFor, routed]
    rfl
  | empty decoded isFor routed | pinged decoded isFor routed =>
    rw [receive_of_decoded decoded isFor, route_of_unanswered (by simp [routed]), routed]
    rfl
  | rejected decoded isFor routed nonempty =>
    rw [receive_of_decoded decoded isFor, route_of_unanswered (by simp [routed]), routed]
    simp [Routed.events, ConsoleEvent.logFrom]

theorem textOutcome_iff : TextOutcome c s raw after events ↔ s.receive c raw = (after, events) := by
  refine ⟨receive_of_textOutcome, ?_⟩
  intro received
  simpa [received] using textOutcome_receive c s raw

end Service

inductive Processed (c : ConsoleSettings) :
    Service → List String → Service → List (List TimedEvent) → Prop
  | nil {s : Service} : Processed c s [] s []
  | cons {s between after : Service} {raw : String} {rest : List String}
      {events : List TimedEvent} {later : List (List TimedEvent)}
      (first : TextOutcome c s raw between events) (others : Processed c between rest after later) :
      Processed c s (raw :: rest) after (events :: later)

theorem processed_iff {c : ConsoleSettings} {s after : Service} {texts : List String}
    {events : List (List TimedEvent)} :
    Processed c s texts after events ↔
      Exchange.responses c s (texts.map .text) = (after, events) := by
  constructor
  · intro processed
    induction processed with
    | nil => rfl
    | cons first _ ih =>
      have received := Service.textOutcome_iff.mp first
      simp only [List.map_cons, Exchange.responses, Exchange.respond, received, ih]
  · intro responses
    induction texts generalizing s events with
    | nil =>
      obtain ⟨rfl, rfl⟩ := Prod.mk.inj responses
      exact .nil
    | cons raw rest ih =>
      obtain ⟨rfl, rfl⟩ := Prod.mk.inj responses
      exact .cons (Service.textOutcome_receive c s raw) (ih rfl)

/-- A frame that has been taken: its events that have left already, and those that are still due. -/
structure InFlight where
  sent : List TimedEvent
  due : List TimedEvent

def InFlight.advance : InFlight → InFlight
  | ⟨sent, []⟩ => ⟨sent, []⟩
  | ⟨sent, e :: due⟩ => ⟨sent ++ [e], due⟩

def InFlight.script (f : InFlight) : List TimedEvent := f.sent ++ f.due

@[simp] theorem InFlight.script_advance (f : InFlight) : f.advance.script = f.script := by
  obtain ⟨sent, due⟩ := f
  cases due <;> simp [advance, script]

structure Floor where
  service : Service
  frames : List InFlight := []

/-- A session takes a text, or the next event of a frame that was taken before leaves. -/
inductive Turn where
  | take (session : Nat) (raw : String)
  | emit (frame : Nat)

namespace Floor

def turn (c : ConsoleSettings) (x : Floor) : Turn → Floor
  | .take _ raw =>
    let (service, events) := x.service.receive c raw
    ⟨service, x.frames ++ [⟨[], events⟩]⟩
  | .emit frame => { x with frames := x.frames.modify frame .advance }

def play (c : ConsoleSettings) (x : Floor) (turns : List Turn) : Floor := turns.foldl (turn c) x

end Floor

def Turn.arrivals (turns : List Turn) : List Arrival :=
  turns.filterMap fun
    | take session raw => some ⟨session, .text raw⟩
    | emit _ => none

namespace Floor

/-- Between the turns the service is where the frames taken so far have brought it, and each of them
leaves the events that it would leave if it were answered at once. -/
theorem play_eq (c : ConsoleSettings) (s : Service) (turns : List Turn) :
    let x := play c ⟨s, []⟩ turns
    (x.service, x.frames.map (·.script)) =
      Exchange.responses c s ((Turn.arrivals turns).map (·.frame)) := by
  induction turns using List.reverseRecOn with
  | nil => rfl
  | append_singleton turns last ih =>
    simp only [play, List.foldl_concat] at ih ⊢
    generalize turns.foldl (turn c) ⟨s, []⟩ = x at ih ⊢
    cases last with
    | take session raw =>
      have arrived : (Turn.arrivals (turns ++ [.take session raw])).map (·.frame) =
          (Turn.arrivals turns).map (·.frame) ++ [.text raw] := by
        simp [Turn.arrivals]
      rw [arrived, Exchange.responses_concat, ← ih]
      simp [turn, Exchange.respond, InFlight.script]
    | emit frame =>
      have arrived : Turn.arrivals (turns ++ [.emit frame]) = Turn.arrivals turns := by
        simp [Turn.arrivals]
      rw [arrived, ← ih]
      have scripts : (x.frames.modify frame .advance).map (·.script) = x.frames.map (·.script) := by
        apply List.ext_getElem (by simp)
        intro k _ _
        simp only [List.getElem_map, List.getElem_modify]
        split <;> simp
      exact Prod.ext rfl scripts

end Floor

/-- However many sessions there are, and whichever of them a text comes through, the texts are
processed one after the other as if by one: all their events are accepted, and the rules tell what
the events are and what becomes of the service. Nothing changes if events leave only later. -/
theorem sessions_fold_router (c : ConsoleSettings) (s : Service) :
    (∀ texts : List (Nat × String),
      let whole := Exchange.run c { service := s, sink := .limitless }
        (texts.map fun text => ⟨text.1, .text text.2⟩)
      (∀ delivery ∈ whole.2, delivery.complete) ∧
      ∀ after events, Processed c s (texts.map (·.2)) after events ↔
        after = whole.1.service ∧ events = whole.2.map (·.accepted)) ∧
    ∀ turns : List Turn,
      let whole := Exchange.run c { service := s, sink := .limitless } (Turn.arrivals turns)
      let x := Floor.play c ⟨s, []⟩ turns
      x.service = whole.1.service ∧ x.frames.map (·.script) = whole.2.map (·.accepted) := by
  refine ⟨?_, ?_⟩
  · intro texts whole
    obtain ⟨complete, answered⟩ := Exchange.run_limitless c s
      (texts.map fun text => ⟨text.1, .text text.2⟩)
    refine ⟨complete, ?_⟩
    intro after events
    have frames : (texts.map fun text => Arrival.mk text.1 (.text text.2)).map (·.frame) =
        (texts.map (·.2)).map .text := by
      simp
    rw [processed_iff, ← frames, ← answered, Prod.mk.injEq]
    exact and_congr eq_comm eq_comm
  · intro turns whole x
    have answered := (Exchange.run_limitless c s (Turn.arrivals turns)).2
    exact Prod.mk.inj ((Floor.play_eq c s turns).trans answered.symm)

def overlap : List Turn :=
  [.take 0 "\x7b\"command\":\"ping R2\",\"node\":\"  \"\x7d", .emit 0,
    .take 1 "\x7b\"command\":\"vlan 10\",\"node\":\" SW1 \"\x7d", .emit 1, .emit 0,
    .take 0 "vlan 20"]

theorem sessions_fold_router_overlap :
    let texts := [(0, "\x7b\"command\":\"ping R2\",\"node\":\"  \"\x7d"),
      (1, "\x7b\"command\":\"vlan 10\",\"node\":\" SW1 \"\x7d"), (0, "vlan 20")]
    let whole := Exchange.run {} { sink := .limitless } (Turn.arrivals overlap)
    let x := Floor.play {} ⟨{}, []⟩ overlap
    Processed {} {} (texts.map (·.2)) x.service (x.frames.map (·.script)) ∧
      (∀ delivery ∈ whole.2, delivery.complete) ∧
      x.frames.map (·.sent.length) = [2, 1, 0] ∧ (x.service.device "SW1").revision = 1 := by
  intro texts whole x
  obtain ⟨sequential, overlapping⟩ := sessions_fold_router {} {}
  obtain ⟨complete, rules⟩ := sequential texts
  exact ⟨(rules _ _).mpr (overlapping overlap), complete, by decide, by decide⟩

end VlanTrunking
