import VlanTrunking.Settings.Options

/-! The command line program. Once its configuration is valid it serves one console session on the
standard streams: each line of input is a frame, and each event is written as one line of JSON when
its time has come. -/
namespace VlanTrunking

def helpText : String :=
  "\n".intercalate <| ["Console backend for the VTP simulator", "", "Options:"] ++
    Setting.all.map fun s => "  --" ++ s.flag ++ " <VALUE>  [env: " ++ s.environmentName ++ "]"

def readBytes (name : String) : IO (Option ByteArray) := do
  try return some (← IO.FS.readBinFile name)
  catch _ => return none

def playEvents (output : IO.FS.Stream) (events : List TimedEvent) : IO Unit := do
  let mut now := 0
  for e in events do
    IO.sleep (e.time - now).toUInt32
    now := e.time
    output.putStrLn e.event.encode
    output.flush

def serveConsole (c : ConsoleSettings) : IO Unit := do
  let input ← IO.getStdin
  let output ← IO.getStdout
  playEvents output [⟨0, greeting⟩]
  let mut service : Service := {}
  repeat
    let line ← input.getLine
    if line.isEmpty then break
    let frame := String.ofList (line.toList.takeWhile (· ≠ '\n'))
    let (after, events) := service.receive c frame
    service := after
    playEvents output events

def readEnvironment : IO (List (String × String)) :=
  Setting.all.filterMapM fun s => do
    return (← IO.getEnv s.environmentName).map fun value => (s.environmentName, value)

end VlanTrunking

open VlanTrunking in
def main (arguments : List String) : IO UInt32 := do
  let known ← readEnvironment
  let environment (name : String) : Option String := known.lookup name
  let named := do (← Options.ofArguments {} arguments).withEnvironment environment
  let content ← match named with
    | .ok { config := some name, .. } => readBytes name
    | _ => pure none
  match Options.start arguments environment fun _ => content with
  | .ok config =>
    IO.eprintln ("VTP simulator for " ++ config.bind.write ++ config.wsPath)
    serveConsole config.console
    return 0
  | .error .help => IO.println helpText; return 0
  | .error .version => IO.println versionText; return 0
  | .error .usage => IO.eprintln "error: wrong arguments; try --help"; return 2
  | .error (.unreadable _) => IO.eprintln "Error: failed to load the config file"; return 1
  | .error (.invalid e) => IO.eprintln (Stop.invalidReport e); return 1
