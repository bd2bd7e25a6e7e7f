import WaveletRaster.Command.Request

/-! From arguments to a request. Arguments are read from the left. An option without an attached
value takes the next argument; its value is read when the next option comes or the arguments end. -/

namespace WaveletRaster

structure PendingOption where
  key : Key
  value : Option String
  deriving DecidableEq

/-- What has been made of the arguments so far. After a double hyphen no option is recognised. -/
structure ArgumentScan where
  values : OptionValues
  pending : Option PendingOption
  trailing : Bool
  deriving DecidableEq

namespace ArgumentScan

def start : ArgumentScan := ⟨{}, none, false⟩

def resolve (s : ArgumentScan) : Except ArgumentError ArgumentScan :=
  match s.pending with
  | none => .ok s
  | some ⟨_, none⟩ => .error .valueMissing
  | some ⟨key, some text⟩ => do return { s with values := ← s.values.set key text, pending := none }

def awaiting? (s : ArgumentScan) : Option Key :=
  match s.pending with
  | some ⟨key, none⟩ => some key
  | _ => none

def setVerbose (s : ArgumentScan) : Except ArgumentError ArgumentScan := do
  return { s with values := ← s.values.setVerbose }

def takeKey (s : ArgumentScan) (key : Key) (attached : Option String) :
    Except ArgumentError ArgumentScan := do
  let s ← s.resolve
  match attached with
  | none => return { s with pending := some ⟨key, none⟩ }
  | some text => return { s with values := ← s.values.set key text }

def takeFlag (s : ArgumentScan) (switch : Switch) : Except ArgumentError ArgumentScan := do
  let s ← s.resolve
  match switch with
  | .verbose => s.setVerbose
  | _ => .error .helpRequested

def takeLong (c : Command) (s : ArgumentScan) (body : List Char) :
    Except ArgumentError ArgumentScan :=
  let name := body.takeWhile (· ≠ '=')
  let attached := (body.dropWhile (· ≠ '=')).tail?.map String.ofList
  match c.switchNamed? (String.ofList name), attached with
  | none, _ => .error .unknownArgument
  | some (.key k), attached => s.takeKey k attached
  | some _, some _ => .error .surplusValue
  | some switch, none => s.takeFlag switch

/-- Takes a cluster of one-letter options. One with a value takes the rest of the cluster, without
an equals sign in front, or the next argument. -/
def takeCluster (c : Command) (s : ArgumentScan) : List Char → Except ArgumentError ArgumentScan
  | [] => .ok s
  | letter :: rest =>
    match c.switchLettered? letter with
    | none => .error .unknownArgument
    | some (.key k) =>
      match rest with
      | [] => s.takeKey k none
      | '=' :: value => s.takeKey k (some (String.ofList value))
      | value => s.takeKey k (some (String.ofList value))
    | some switch => do takeCluster c (← s.takeFlag switch) rest

def takeValue (s : ArgumentScan) (text : String) : Except ArgumentError ArgumentScan :=
  match s.awaiting? with
  | some key => .ok { s with pending := some ⟨key, some text⟩ }
  | none => .error .unknownArgument

def step (c : Command) (s : ArgumentScan) (argument : String) : Except ArgumentError ArgumentScan :=
  if s.trailing then .error .unknownArgument
  else if (s.awaiting?.map Key.takesHyphens).getD false then s.takeValue argument
  else
    match argument.toList with
    | ['-', '-'] => .ok { s with trailing := true }
    | '-' :: '-' :: body => s.takeLong c body
    | '-' :: letter :: rest => s.takeCluster c (letter :: rest)
    | _ => s.takeValue argument

end ArgumentScan

def Command.request (c : Command) (arguments : List String) : Except ArgumentError Request := do
  let s ← arguments.foldlM (ArgumentScan.step c) .start
  let s ← s.resolve
  s.values.request c

def helpRequest (topics : List String) : ArgumentError :=
  match topics with
  | [] => .helpRequested
  | [topic] =>
    if topic = "help" ∨ (Command.ofName? topic).isSome then .helpRequested else .unknownCommand
  | _ => .unknownCommand

def optionBeforeCommand (argument : List Char) (rest : List String) : ArgumentError :=
  match argument with
  | ['-', '-'] =>
    match rest with
    | [] => .commandMissing
    | next :: _ =>
      if next = "help" ∨ (Command.ofName? next).isSome then .unknownArgument else .unknownCommand
  | '-' :: '-' :: body =>
    let name := String.ofList (body.takeWhile (· ≠ '='))
    if name = "help" ∨ name = "version" then
      if body.contains '=' then .surplusValue
      else if name = "help" then .helpRequested
      else .versionRequested
    else .unknownArgument
  | '-' :: 'h' :: _ => .helpRequested
  | '-' :: 'V' :: _ => .versionRequested
  | '-' :: _ :: _ => .unknownArgument
  | _ => .unknownCommand

def Request.ofArguments : List String → Except ArgumentError Request
  | [] => .error .commandMissing
  | first :: rest =>
    match Command.ofName? first with
    | some c => c.request rest
    | none =>
      if first = "help" then .error (helpRequest rest)
      else .error (optionBeforeCommand first.toList rest)

end WaveletRaster
