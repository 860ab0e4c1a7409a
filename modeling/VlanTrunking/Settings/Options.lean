import VlanTrunking.Settings.File

/-! The command line. Every setting has a flag and an environment variable, and so has the name of
the configuration file. A flag comes before its variable, the variable before the file, and the file
before the default. Arguments are read from left to right, and the first that is wrong, or asks for
help or the version, decides. -/
namespace VlanTrunking

inductive Setting where
  | config
  | bind
  | port
  | wsPath
  | defaultNode
  | echoDelay
  | replyDelay
  | logLevel
  deriving DecidableEq, Repr

namespace Setting

def all : List Setting :=
  [config, bind, port, wsPath, defaultNode, echoDelay, replyDelay, logLevel]

def flag : Setting → String
  | config => "config"
  | bind => "bind"
  | port => "port"
  | wsPath => "ws-path"
  | defaultNode => "default-node"
  | echoDelay => "ping-echo-ms"
  | replyDelay => "ping-reply-ms"
  | logLevel => "log-level"

def environmentName : Setting → String
  | config => "VTP_CONFIG"
  | bind => "VTP_BIND"
  | port => "VTP_PORT"
  | wsPath => "VTP_WS_PATH"
  | defaultNode => "VTP_DEFAULT_NODE"
  | echoDelay => "VTP_PING_ECHO_MS"
  | replyDelay => "VTP_PING_REPLY_MS"
  | logLevel => "VTP_LOG"

end Setting

structure Options where
  config : Option String := none
  bind : Option String := none
  port : Option Port := none
  wsPath : Option String := none
  defaultNode : Option String := none
  echoDelay : Option Nat := none
  replyDelay : Option Nat := none
  logLevel : Option String := none
  deriving DecidableEq, Repr, Inhabited

inductive Stop where
  | help
  | version
  | usage
  | unreadable (error : FileError)
  | invalid (error : SettingsError)
  deriving DecidableEq, Repr

namespace Options

def readPort (text : String) : Option Port := (Text.readSigned text.toList).bind Port.ofInt?

def readDelay (text : String) : Option Nat :=
  (Text.readUnsigned text.toList).filter (· ≤ Text.greatestWord)

def has (o : Options) : Setting → Bool
  | .config => o.config.isSome
  | .bind => o.bind.isSome
  | .port => o.port.isSome
  | .wsPath => o.wsPath.isSome
  | .defaultNode => o.defaultNode.isSome
  | .echoDelay => o.echoDelay.isSome
  | .replyDelay => o.replyDelay.isSome
  | .logLevel => o.logLevel.isSome

/-- Gives a setting the value of a text. Only the name of a file may not be empty. -/
def give (o : Options) (setting : Setting) (text : String) : Except Stop Options :=
  let number {α} (read : Option α) (set : α → Options) : Except Stop Options :=
    match read with
    | some n => .ok (set n)
    | none => .error .usage
  match setting with
  | .config => if text = "" then .error .usage else .ok { o with config := some text }
  | .bind => .ok { o with bind := some text }
  | .port => number (readPort text) fun n => { o with port := some n }
  | .wsPath => .ok { o with wsPath := some text }
  | .defaultNode => .ok { o with defaultNode := some text }
  | .echoDelay => number (readDelay text) fun n => { o with echoDelay := some n }
  | .replyDelay => number (readDelay text) fun n => { o with replyDelay := some n }
  | .logLevel => .ok { o with logLevel := some text }

def giveOnce (o : Options) (setting : Setting) (text : String) : Except Stop Options :=
  if o.has setting then .error .usage else o.give setting text

inductive Argument where
  | endOfFlags
  | help
  | version
  | setting (setting : Setting) (value : Option String)
  | unknown
  deriving DecidableEq, Repr

/-- A flag has two dashes and its full name, and its value may follow an equals sign. Help and
version take no value; their short flags may have anything behind them. -/
def Argument.ofText (text : String) : Argument :=
  match text.toList with
  | ['-', '-'] => endOfFlags
  | '-' :: '-' :: body =>
    let name := String.ofList (body.takeWhile (· ≠ '='))
    let value := match body.dropWhile (· ≠ '=') with
      | [] => none
      | _ :: value => some (String.ofList value)
    match Setting.all.find? fun s => s.flag = name with
    | some s => setting s value
    | none =>
      if value.isSome then unknown
      else if name = "help" then help
      else if name = "version" then version
      else unknown
  | '-' :: 'h' :: _ => help
  | '-' :: 'V' :: _ => version
  | _ => unknown

def isValue (text : String) : Bool := text = "-" || text.toList.head? != some '-'

/-- Reads the arguments. A value that starts with a dash has to follow an equals sign, and nothing
may stand behind the end of the flags. -/
def ofArguments (o : Options) : List String → Except Stop Options
  | [] => .ok o
  | text :: rest =>
    match Argument.ofText text with
    | .endOfFlags => if rest.isEmpty then .ok o else .error .usage
    | .help => .error .help
    | .version => .error .version
    | .unknown => .error .usage
    | .setting s (some value) => do ofArguments (← o.giveOnce s value) rest
    | .setting s none =>
      match rest with
      | [] => .error .usage
      | value :: rest =>
        if isValue value then do ofArguments (← o.giveOnce s value) rest else .error .usage

/-- Fills in what no flag gave from the environment. The variable of a setting that was given is not
even read. -/
def withEnvironment (o : Options) (environment : String → Option String) : Except Stop Options :=
  Setting.all.foldlM (fun o s =>
    if o.has s then .ok o
    else
      match environment s.environmentName with
      | none => .ok o
      | some text => o.give s text) o

def override (o : Options) (s : Settings) : Settings where
  bindAddress := o.bind.getD s.bindAddress
  port := o.port.getD s.port
  wsPath := o.wsPath.getD s.wsPath
  defaultNode := o.defaultNode.getD s.defaultNode
  echoDelay := o.echoDelay.getD s.echoDelay
  replyDelay := o.replyDelay.getD s.replyDelay
  logLevel := o.logLevel.getD s.logLevel

def baseSettings (o : Options) (files : String → Option ByteArray) : Except Stop Settings :=
  match o.config with
  | none => .ok {}
  | some name =>
    match Settings.ofFile (files name) with
    | .ok s => .ok s
    | .error e => .error (.unreadable e)

/-- The configuration that a start of the server means, from its arguments, the environment and the
files that are there. -/
def start (arguments : List String) (environment : String → Option String)
    (files : String → Option ByteArray) : Except Stop ServerConfig := do
  let given ← ofArguments {} arguments
  let o ← given.withEnvironment environment
  let base ← o.baseSettings files
  match (o.override base).validate with
  | .ok config => return config
  | .error e => throw (.invalid e)

end Options

namespace Stop

def invalidReport (e : SettingsError) : String :=
  let causes := match e.causes with
    | [cause] => ["    " ++ cause]
    | causes => causes.zipIdx.map fun (cause, place) => "    " ++ place.repr ++ ": " ++ cause
  "\n".intercalate (["Error: invalid server configuration", "", "Caused by:"] ++ causes)

end Stop

def versionText : String := "vtp-server 0.1.0"

end VlanTrunking
