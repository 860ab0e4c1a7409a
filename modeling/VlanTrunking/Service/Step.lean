import VlanTrunking.Service.Basic

/-! Commands in sequence. A step is a command on a switch, already read; a run carries out steps one
after the other and collects their replies. -/
namespace VlanTrunking

inductive Step where
  | config (device : String) (command : ConfigCommand)
  | query (device : String) (command : ShowCommand)
  deriving DecidableEq, Repr

def Step.device : Step → String
  | .config device _ => device
  | .query device _ => device

namespace Service

def perform (s : Service) : Step → Service × Except CommandError String
  | .config device command => s.configure device command
  | .query device command =>
    let (s, text) := s.report device command
    (s, .ok text)

def run (s : Service) : List Step → Service × List (Except CommandError String)
  | [] => (s, [])
  | step :: rest =>
    let (s, reply) := s.perform step
    let (s, replies) := s.run rest
    (s, reply :: replies)

end Service

end VlanTrunking
