import VlanTrunking.Console.Session

/-! The WebSocket endpoint. Before it stands a layer of HTTP, which makes out the path that a request
asks for or drops the request. A client is accepted and greeted if this is the path of the endpoint,
and is then served until it closes, its connection is lost, or it sends a frame that is not allowed.
Every text frame of a served client goes to the session layer, and its events go back to that
client. -/
namespace VlanTrunking

inductive ClientFrame where
  | text (raw : String)
  | binary
  | ping
  | pong
  | close
  | lost
  | illegal
  deriving DecidableEq, Repr

/-- One step of the outside as the server's loop takes it: a new client with the target of its
request, or a whole frame of a client. A client to which nothing can be sent any more is lost. -/
inductive ClientStep where
  | connect (target : String)
  | frame (client : Nat) (frame : ClientFrame)
  deriving DecidableEq, Repr

inductive ClientAnswer where
  | notFound
  | served (events : List ConsoleEvent)
  | ended
  deriving DecidableEq, Repr

/-- The service with the clients so far by number; true marks those that are served. -/
structure Endpoint where
  service : Service := {}
  clients : List Bool := []

/-- The path of an endpoint, and what the layer of HTTP before it makes of a request target: the path
that is asked for, or nothing if the request is dropped. -/
structure Entrance where
  path : String
  pathOf? : String → Option String

def barePath (target : String) : String :=
  let path := target.toList.takeWhile fun c => c != '?' && c != '#'
  if path.isEmpty then "/" else String.ofList path

/-- The entrance where no request is dropped and every target is in origin form. -/
def Entrance.ofPath (path : String) : Entrance := ⟨path, fun target => some (barePath target)⟩

instance : Coe String Entrance := ⟨Entrance.ofPath⟩

namespace Endpoint

def serves (x : Endpoint) (client : Nat) : Bool := x.clients[client]?.getD false

def dismiss (x : Endpoint) (client : Nat) : Endpoint :=
  { x with clients := x.clients.set client false }

def enroll (x : Endpoint) (accepted : Bool) : Endpoint :=
  { x with clients := x.clients ++ [accepted] }

def step (door : Entrance) (c : ConsoleSettings) (x : Endpoint) :
    ClientStep → Endpoint × ClientAnswer
  | .connect target =>
    match door.pathOf? target with
    | none => (x.enroll false, .ended)
    | some path =>
      if path = door.path then (x.enroll true, .served [greeting]) else (x.enroll false, .notFound)
  | .frame client frame =>
    if x.serves client then
      match frame with
      | .text raw =>
        let (service, events) := x.service.receive c raw
        ({ x with service }, .served (events.map (·.event)))
      | .binary | .ping | .pong => (x, .served [])
      | .close | .lost | .illegal => (x.dismiss client, .ended)
    else (x, .ended)

def run (door : Entrance) (c : ConsoleSettings) (x : Endpoint) :
    List ClientStep → Endpoint × List ClientAnswer
  | [] => (x, [])
  | step :: rest =>
    let (x, answer) := x.step door c step
    let (x, answers) := run door c x rest
    (x, answer :: answers)

end Endpoint

end VlanTrunking
