/-
# Arguments of the command line

Options are given by their full names, two of them also by a letter, and none more than once.  An
option with a value takes the next argument or what follows an equals sign; a value that begins
with a dash can only be given in the second way.  There are no arguments without a name.
-/
import CheckIn.Config.Basic

namespace CheckIn.CommandLine

/-- What was given on the command line. -/
structure Arguments where
  controllerUrl : Option String := none
  edgeId : Option String := none
  endpointId : Option String := none
  /-- The interval between polls, in seconds. -/
  pollFrequency : Option UInt64 := none
  /-- The idle time of a tunnel, in seconds. -/
  inactivityTimeout : Option UInt64 := none
  insecurePoll : Bool := false
  platform : Option Platform := none
  /-- Whether the agent was asked to tell more about itself. -/
  foreground : Bool := false
  logLevel : Option String := none
  /-- The path of the configuration file. -/
  config : Option String := none
deriving DecidableEq, Repr, Inhabited

/-- Why the program does not run. -/
inductive Refusal
  /-- Help or the version was asked for. -/
  | information
  /-- The arguments are wrong. -/
  | usage
deriving DecidableEq, Repr

/-- The options that take a value. -/
inductive ValueOption
  | controllerUrl
  | edgeId
  | endpointId
  | pollFrequency
  | inactivityTimeout
  | platform
  | logLevel
  | config
deriving DecidableEq, Repr

/-- The options that take none. -/
inductive FlagOption
  | insecurePoll
  | foreground
  | help
  | version
deriving DecidableEq, Repr

/-- The option of a full name. -/
def longOption? (name : String) : Option (ValueOption ⊕ FlagOption) :=
  match name with
  | "controller-url" => some (.inl .controllerUrl)
  | "edge-id" => some (.inl .edgeId)
  | "endpoint-id" => some (.inl .endpointId)
  | "poll-frequency" => some (.inl .pollFrequency)
  | "inactivity-timeout" => some (.inl .inactivityTimeout)
  | "platform" => some (.inl .platform)
  | "log-level" => some (.inl .logLevel)
  | "config" => some (.inl .config)
  | "insecure-poll" => some (.inr .insecurePoll)
  | "foreground" => some (.inr .foreground)
  | "help" => some (.inr .help)
  | "version" => some (.inr .version)
  | _ => none

/-- The option of a letter. -/
def shortOption? (letter : Char) : Option (ValueOption ⊕ FlagOption) :=
  match letter with
  | 'c' => some (.inl .config)
  | 'f' => some (.inr .foreground)
  | 'h' => some (.inr .help)
  | 'V' => some (.inr .version)
  | _ => none

/-- A natural number of 64 bits, in decimal digits after an optional plus sign. -/
def natural? (text : String) : Option UInt64 :=
  let digits :=
    match text.toList with
    | '+' :: digits => digits
    | digits => digits
  if digits.isEmpty || !digits.all Char.isDigit then none
  else
    let value := digitsValue digits
    if value < 0x10000000000000000 then some (UInt64.ofNat value) else none

namespace Arguments

/-- Whether an option was given. -/
def has (arguments : Arguments) : ValueOption → Bool
  | .controllerUrl => arguments.controllerUrl.isSome
  | .edgeId => arguments.edgeId.isSome
  | .endpointId => arguments.endpointId.isSome
  | .pollFrequency => arguments.pollFrequency.isSome
  | .inactivityTimeout => arguments.inactivityTimeout.isSome
  | .platform => arguments.platform.isSome
  | .logLevel => arguments.logLevel.isSome
  | .config => arguments.config.isSome

/-- Sets an option, which must not be given yet and must fit. -/
def set (arguments : Arguments) (option : ValueOption) (value : String) :
    Except Refusal Arguments :=
  let fitting {α : Type} (read : Option α) (put : α → Arguments) : Except Refusal Arguments :=
    match read with
    | some value => .ok (put value)
    | none => .error .usage
  if arguments.has option then .error .usage
  else
    match option with
    | .controllerUrl => .ok { arguments with controllerUrl := some value }
    | .edgeId => .ok { arguments with edgeId := some value }
    | .endpointId => .ok { arguments with endpointId := some value }
    | .pollFrequency =>
      fitting (natural? value) fun value => { arguments with pollFrequency := some value }
    | .inactivityTimeout =>
      fitting (natural? value) fun value => { arguments with inactivityTimeout := some value }
    | .platform =>
      fitting (Platform.ofName? value) fun value => { arguments with platform := some value }
    | .logLevel => .ok { arguments with logLevel := some value }
    | .config =>
      if value = "" then .error .usage else .ok { arguments with config := some value }

/-- Sets a flag, which must not be set yet, or stops for help or the version. -/
def setFlag (arguments : Arguments) : FlagOption → Except Refusal Arguments
  | .insecurePoll =>
    if arguments.insecurePoll then .error .usage
    else .ok { arguments with insecurePoll := true }
  | .foreground =>
    if arguments.foreground then .error .usage else .ok { arguments with foreground := true }
  | .help | .version => .error .information

/-- Whether the next argument can be the value of an option. -/
def isValue (next : String) : Bool :=
  match next.toList with
  | '-' :: _ :: _ => false
  | _ => true

/-- Reads the letters after a single dash.  An option among them takes what remains as its value;
if nothing remains, the option is returned, for the next argument. -/
def readLetters (arguments : Arguments) :
    List Char → Except Refusal (Arguments × Option ValueOption)
  | [] => .ok (arguments, none)
  | letter :: rest =>
    match shortOption? letter with
    | none => .error .usage
    | some (.inr flag) => do readLetters (← arguments.setFlag flag) rest
    | some (.inl option) =>
      match rest with
      | [] => .ok (arguments, some option)
      | '=' :: value => do return (← arguments.set option (String.ofList value), none)
      | value => do return (← arguments.set option (String.ofList value), none)

/-- Reads one argument.  If it is an option whose value is still to come, the option is
returned. -/
def readOne (arguments : Arguments) (next : String) :
    Except Refusal (Arguments × Option ValueOption) :=
  match next.toList with
  | '-' :: '-' :: long =>
    let name := String.ofList (long.takeWhile (· ≠ '='))
    let value? : Option String :=
      match long.dropWhile (· ≠ '=') with
      | '=' :: value => some (String.ofList value)
      | _ => none
    match longOption? name, value? with
    | some (.inl option), some value => do return (← arguments.set option value, none)
    | some (.inl option), none => .ok (arguments, some option)
    | some (.inr flag), none => do return (← arguments.setFlag flag, none)
    | some (.inr _), some _ => .error .usage
    | none, _ => .error .usage
  | '-' :: letter :: letters => arguments.readLetters (letter :: letters)
  | _ => .error .usage

/-- Reads all arguments; `awaiting` is the option for which the next one is the value.  Two dashes
end the options, and nothing may follow them. -/
def readAll : (arguments : Arguments) → (awaiting : Option ValueOption) → List String →
    Except Refusal Arguments
  | arguments, none, [] => .ok arguments
  | _, some _, [] => .error .usage
  | arguments, some option, next :: rest =>
    if isValue next then do readAll (← arguments.set option next) none rest
    else .error .usage
  | arguments, none, next :: rest =>
    if next = "--" then if rest.isEmpty then .ok arguments else .error .usage
    else do
      let (arguments, awaiting) ← arguments.readOne next
      readAll arguments awaiting rest

/-- What the arguments of the command line say. -/
def ofList (arguments : List String) : Except Refusal Arguments := readAll {} none arguments

end Arguments

end CheckIn.CommandLine
