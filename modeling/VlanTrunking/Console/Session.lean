import VlanTrunking.Console.Event
import VlanTrunking.Service.Route

/-! Sessions between a console and the service. A session turns each inbound frame into events with
the times at which they leave, counted in milliseconds from the frame. Sessions keep nothing of
their own: they share one service, and a frame is answered in the state that the frames before it
left, whichever session they came from. Events leave through a sink, which may stop accepting them;
what was already done to the service stays done. -/
namespace VlanTrunking

structure PingTiming where
  echoDelay : Nat := 500
  replyDelay : Nat := 1500
  deriving DecidableEq, Repr, Inhabited

structure ConsoleSettings where
  defaultNode : String := "PC1"
  timing : PingTiming := {}
  deriving DecidableEq, Repr, Inhabited

structure TimedEvent where
  time : Nat
  event : ConsoleEvent
  deriving DecidableEq, Repr

def greeting : ConsoleEvent := .notice "Connected to VTP simulator backend"

def pingScript (timing : PingTiming) (origin target : String) : List TimedEvent :=
  [⟨0, .logFrom origin ("Pinging " ++ target ++ "...")⟩,
    ⟨timing.echoDelay, .flow origin target "ICMP"⟩,
    ⟨timing.echoDelay + timing.replyDelay,
      .logFrom origin ("Reply received from " ++ target ++ " ✅")⟩]

def Routed.events (timing : PingTiming) (device : String) : Routed → List TimedEvent
  | .reply text => [⟨0, .logFrom device text⟩]
  | .rejected .emptyCommand => [⟨0, .notice CommandError.emptyCommand.message⟩]
  | .rejected e => [⟨0, .logFrom device e.message⟩]
  | .ping target => pingScript timing device target

namespace Service

def answer (c : ConsoleSettings) (s : Service) (r : CommandRequest) : Service × List TimedEvent :=
  let device := r.deviceId c.defaultNode
  let (s, routed) := s.route device r.command
  (s, routed.events c.timing device)

/-- Carries out the request in a text; a text without one is reported and does nothing. -/
def receive (c : ConsoleSettings) (s : Service) (raw : String) : Service × List TimedEvent :=
  match CommandRequest.decode? raw with
  | some r => s.answer c r
  | none => (s, [⟨0, .notice ("Invalid payload: " ++ raw)⟩])

end Service

/-- Where events leave, with the number that it still takes; none is no limit. -/
structure Sink where
  room : Option Nat := none
  deriving DecidableEq, Repr, Inhabited

structure Delivery where
  accepted : List TimedEvent
  sink : Sink
  complete : Bool
  deriving DecidableEq, Repr

namespace Sink

def accept (sink : Sink) : Option Sink :=
  match sink.room with
  | none => some sink
  | some 0 => none
  | some (n + 1) => some ⟨some n⟩

/-- Offers events in order and stops at the first that is refused. -/
def deliver (sink : Sink) : List TimedEvent → Delivery
  | [] => ⟨[], sink, true⟩
  | e :: rest =>
    match sink.accept with
    | none => ⟨[], sink, false⟩
    | some sink =>
      let later := sink.deliver rest
      { later with accepted := e :: later.accepted }

end Sink

inductive InboundFrame where
  | text (raw : String)
  | greet
  deriving DecidableEq, Repr

structure Arrival where
  session : Nat
  frame : InboundFrame
  deriving DecidableEq, Repr

structure Exchange where
  service : Service := {}
  sink : Sink := {}

namespace Exchange

/-- What a frame does to the service, and the events that it calls for. -/
def respond (c : ConsoleSettings) (s : Service) : InboundFrame → Service × List TimedEvent
  | .text raw => s.receive c raw
  | .greet => (s, [⟨0, greeting⟩])

def step (c : ConsoleSettings) (x : Exchange) (a : Arrival) : Exchange × Delivery :=
  let (service, events) := respond c x.service a.frame
  let delivery := x.sink.deliver events
  ({ service, sink := delivery.sink }, delivery)

def run (c : ConsoleSettings) (x : Exchange) : List Arrival → Exchange × List Delivery
  | [] => (x, [])
  | a :: rest =>
    let (x, delivery) := x.step c a
    let (x, deliveries) := run c x rest
    (x, delivery :: deliveries)

end Exchange

end VlanTrunking
