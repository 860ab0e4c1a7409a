import VlanTrunking.Command.Line
import VlanTrunking.Service.Basic

/-! What becomes of a raw command line: configuration and show lines are answered by the service,
a ping is left to the caller, and anything else is rejected. -/
namespace VlanTrunking

inductive Routed where
  | reply (text : String)
  | rejected (error : CommandError)
  | ping (target : String)
  deriving DecidableEq, Repr

def defaultPingTarget : String := "R1"

namespace Service

def route (s : Service) (id line : String) : Service × Routed :=
  let line := Text.trim line
  match LineFamily.ofLine line with
  | .empty => (s, .rejected .emptyCommand)
  | .config => let (s, text) := s.handleConfig id line; (s, .reply text)
  | .query => let (s, text) := s.handleShow id line; (s, .reply text)
  | .ping => (s, .ping ((Text.words line)[1]?.getD defaultPingTarget))
  | .unknown => (s, .rejected (.unknownCommand line))

end Service

end VlanTrunking
