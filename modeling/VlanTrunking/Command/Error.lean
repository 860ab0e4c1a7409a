import VlanTrunking.Mode

/-! The ways in which a command line is turned down, and the text shown for each. -/
namespace VlanTrunking

inductive CommandError where
  | invalidMode (token : String)
  | incompleteCommand
  | unsupportedCommand
  | unsupportedShow
  | notVtpCommand
  | invalidVlanList (list : String)
  | vlanConfigNotAllowed (mode : Mode)
  | vlanLimitExceeded
  | invalidPrivateVlanType (role : String)
  | emptyCommand
  | unknownCommand (line : String)
  deriving DecidableEq, Repr

inductive ErrorKind where
  | invalidMode
  | incompleteCommand
  | unsupportedCommand
  | invalidArgument
  | notPermitted
  | routing
  deriving DecidableEq, Repr

def vlanCapacity : Nat := 1005

namespace CommandError

def kind : CommandError → ErrorKind
  | invalidMode _ => .invalidMode
  | incompleteCommand => .incompleteCommand
  | unsupportedCommand | unsupportedShow | notVtpCommand => .unsupportedCommand
  | invalidVlanList _ | invalidPrivateVlanType _ => .invalidArgument
  | vlanConfigNotAllowed _ | vlanLimitExceeded => .notPermitted
  | emptyCommand | unknownCommand _ => .routing

def message : CommandError → String
  | invalidMode token => "Invalid VTP mode: " ++ token
  | incompleteCommand => "Incomplete VTP command"
  | unsupportedCommand => "Unsupported VTP command"
  | unsupportedShow => "Unsupported VTP show command"
  | notVtpCommand => "Invalid VTP command"
  | invalidVlanList list => "Invalid VLAN list: " ++ list
  | vlanConfigNotAllowed mode =>
    "VTP VLAN configuration not allowed when device is in " ++ Text.upper mode.name ++ " mode."
  | vlanLimitExceeded =>
    "VLAN limit exceeded: at most " ++ vlanCapacity.repr ++ " VLANs supported locally"
  | invalidPrivateVlanType role => "Invalid private VLAN type: " ++ role
  | emptyCommand => "Empty command"
  | unknownCommand line => "Unknown command: " ++ line

end CommandError

section Outcomes

variable {α β : Type} {x : Except CommandError α} {b : β} {e : CommandError}

theorem accepted_bind {f : α → Except CommandError β} :
    (x >>= f) = .ok b ↔ ∃ a, x = .ok a ∧ f a = .ok b := by
  cases x <;> simp [bind, Except.bind]

theorem refused_bind {f : α → Except CommandError β} :
    (x >>= f) = .error e ↔ x = .error e ∨ ∃ a, x = .ok a ∧ f a = .error e := by
  cases x <;> simp [bind, Except.bind]

theorem accepted_of_isOk (h : x.isOk = true) : ∃ a, x = .ok a := by
  cases x with
  | ok a => exact ⟨a, rfl⟩
  | error e => cases h

theorem accepted_map {f : α → β} : f <$> x = .ok b ↔ ∃ a, x = .ok a ∧ f a = b := by
  cases x <;> simp [Functor.map, Except.map]

theorem refused_map {f : α → β} : f <$> x = .error e ↔ x = .error e := by
  cases x <;> simp [Functor.map, Except.map]

end Outcomes

end VlanTrunking
