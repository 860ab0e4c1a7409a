import VlanTrunking.Address.Socket
import VlanTrunking.Console.Session

/-! The settings of the server as an operator gives them, and the configuration that valid settings
mean. -/
namespace VlanTrunking

def defaultPort : Port := ⟨8000, by decide⟩

structure Settings where
  bindAddress : String := "0.0.0.0"
  port : Port := defaultPort
  wsPath : String := "/ws"
  defaultNode : String := "PC1"
  echoDelay : Nat := 500
  replyDelay : Nat := 1500
  logLevel : String := "info"
  deriving DecidableEq, Repr, Inhabited

structure ServerConfig where
  bind : SocketAddress
  wsPath : String
  console : ConsoleSettings
  logLevel : String
  deriving DecidableEq

inductive SettingsError where
  | invalidBindAddress (value : String)
  | invalidWsPath (path : String)
  deriving DecidableEq, Repr

namespace SettingsError

def addressFault : String := "invalid IP address syntax"

def message : SettingsError → String
  | invalidBindAddress value => "invalid bind address '" ++ value ++ "': " ++ addressFault
  | invalidWsPath path => "WebSocket path must start with '/': '" ++ path ++ "'"

/-- The message with what it rests on, outermost first. -/
def causes (e : SettingsError) : List String :=
  match e with
  | invalidBindAddress _ => [e.message, addressFault]
  | invalidWsPath _ => [e.message]

end SettingsError

/-- The address is looked at before the path. -/
def Settings.validate (s : Settings) : Except SettingsError ServerConfig :=
  match IpAddress.read? s.bindAddress with
  | none => .error (.invalidBindAddress s.bindAddress)
  | some ip =>
    if s.wsPath.toList.head? = some '/' then
      .ok {
        bind := ⟨ip, s.port⟩
        wsPath := s.wsPath
        console := { defaultNode := s.defaultNode, timing := ⟨s.echoDelay, s.replyDelay⟩ }
        logLevel := s.logLevel }
    else .error (.invalidWsPath s.wsPath)

theorem Settings.validate_eq_ok_iff {s : Settings} {c : ServerConfig} :
    s.validate = .ok c ↔ ∃ ip, IpAddress.read? s.bindAddress = some ip ∧
      s.wsPath.toList.head? = some '/' ∧
      c = ⟨⟨ip, s.port⟩, s.wsPath, ⟨s.defaultNode, ⟨s.echoDelay, s.replyDelay⟩⟩, s.logLevel⟩ := by
  unfold validate
  cases IpAddress.read? s.bindAddress with
  | none => simp
  | some ip =>
    by_cases absolute : s.wsPath.toList.head? = some '/'
    · simp [absolute, eq_comm (a := c)]
    · simp [absolute]

end VlanTrunking
