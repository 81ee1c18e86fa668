/-
What a shell and its tools work on.

A machine has a store of files, the streams that have been opened, and the shell that is running now. Descriptors of
the shell lead to streams, so two of them can share a stream and its place. A shell inside a shell, and every tool,
sees the same store and streams; what it does to its own part ends with it.

`Run` is an action on a machine. It may end early: because something failed, because the process ends, or because a
signal kills a process. Work that goes on too deep or too long ends by a signal as well.
-/
import InterfacePages.Act
import InterfacePages.Bench.Shell.Syntax
import InterfacePages.Files.Store

namespace InterfacePages

namespace Bench

namespace Shell

/-! ## Complaints -/

/-- what a system answer is about, for the words of the shell -/
inductive Attempt where
  | opening
  | creating
  | starting
  deriving DecidableEq, Repr

def systemWords (attempt : Attempt) (cause : OsCause) : Octets :=
  match cause, attempt with
  | .notFound, .opening => "No such file"
  | .notFound, .creating => "Directory nonexistent"
  | .notFound, .starting => "not found"
  | .notADirectory, .opening => "No such file"
  | .notADirectory, .creating => "Directory nonexistent"
  | .notADirectory, .starting => "not found"
  | cause, _ => Octets.ofText cause.message

/-- why an expression cannot be worked out -/
inductive SumFault where
  | endExpected
  | operandExpected
  | parenthesisExpected
  | colonExpected
  | divisionByZero
  deriving DecidableEq, Repr

namespace SumFault

/-- the words for a fault in an expression -/
def message : SumFault → Octets
  | endExpected => "expecting EOF"
  | operandExpected => "expecting primary"
  | parenthesisExpected => "expecting ')'"
  | colonExpected => "expecting ':'"
  | divisionByZero => "division by zero"

end SumFault

inductive Complaint where
  | cannotRead (cause : SyntaxFault)
  | cannotOpen (name : Octets) (cause : OsCause)
  | cannotCreate (name : Octets) (cause : OsCause)
  | cannotStart (name : Octets) (cause : OsCause)
  | badDescriptor (number : Nat)
  | notSet (name words : Octets)
  | badSubstitution
  | badSum (cause : SumFault) (expression : Octets)
  | illegalNumber (given : Octets)
  | readOnly (name : Octets)
  | badName (name : Octets)
  | cannotShift
  | cannotChange (folder : Octets)
  | badOption (option : Octets)
  | badSetting (given : Octets)
  | lacksArgument (option : Octets)
  | lacksNames
  | noExpression
  | badTrap (name : Octets)
  | unknownSignal (name : Octets)
  | noProcess
  | badOperator (operator : Octets)
  | lacksOperand (operator : Octets)
  | lacksParenthesis
  | lacksBracket
  | outsideFunction
  | notNumeric (given : Octets)
  | notWhollyNumeric (given : Octets)
  | outOfRange (given : Octets)
  | badDirective (directive : Octets)
  | cannotLayOut
  | usage (words : Octets)
  | cannotWrite (name : Octets)
  | tooDeep
  | unknownCommand (name : Octets)
  deriving DecidableEq, Repr

namespace Complaint

def message : Complaint → Octets
  | cannotRead cause => "Syntax error: " ++ cause.message
  | cannotOpen name cause => "cannot open " ++ name ++ ": " ++ systemWords .opening cause
  | cannotCreate name cause => "cannot create " ++ name ++ ": " ++ systemWords .creating cause
  | cannotStart name cause => name ++ ": " ++ systemWords .starting cause
  | badDescriptor number => Octets.decimal number ++ ": " ++ Octets.ofText OsCause.badDescriptor.message
  | notSet name words => name ++ ": " ++ words
  | badSubstitution => "Bad substitution"
  | badSum cause expression => "arithmetic expression: " ++ cause.message ++ ": \"" ++ expression ++ "\""
  | illegalNumber given => "Illegal number: " ++ given
  | readOnly name => name ++ ": is read only"
  | badName name => name ++ ": bad variable name"
  | cannotShift => "can't shift that many"
  | cannotChange folder => "can't cd to " ++ folder
  | badOption option => "Illegal option " ++ option
  | badSetting given => "Illegal option -o " ++ given
  | lacksArgument option => "No arg for " ++ option ++ " option"
  | lacksNames => "arg count"
  | noExpression => "missing expression"
  | badTrap name => name ++ ": bad trap"
  | unknownSignal name => "invalid signal number or name: " ++ name
  | noProcess => "No such process"
  | badOperator operator => operator ++ ": unexpected operator"
  | lacksOperand operator => operator ++ ": argument expected"
  | lacksParenthesis => "closing paren expected"
  | lacksBracket => "missing ]"
  | outsideFunction => "not in a function"
  | notNumeric given => given ++ ": expected numeric value"
  | notWhollyNumeric given => given ++ ": not completely converted"
  | outOfRange given => given ++ ": Numerical result out of range"
  | badDirective directive => directive ++ ": invalid directive"
  | cannotLayOut => "xvsnprintf failed"
  | usage words => words
  | cannotWrite name => name ++ ": I/O error"
  | tooDeep => "Maximum function recursion depth (1000) reached"
  | unknownCommand name => name ++ ": not found"

end Complaint

/-! ## The state -/

/-- what an open descriptor leads to: something to read, something that collects what is written, a file with a place
in it, a folder, or nothing -/
inductive Stream where
  | source (unread : Octets)
  | sink (chunks : List Octets)
  | file (place : Files.Place) (offset : Nat) (reads writes appends : Bool)
  | folder
  | nothing
  deriving Repr, Inhabited

/-- a variable: its value if it has one, whether tools see it, and whether it is fixed -/
structure Binding where
  value : Option Octets
  exported : Bool
  readOnly : Bool
  deriving DecidableEq, Repr, Inhabited

/-- what is left undone because of `break`, `continue` or `return` -/
inductive Skip where
  | none
  | break_
  | continue_
  | return_
  deriving DecidableEq, Repr, Inhabited

/-- a shell: its process and title, parameters, variables, functions, options, descriptors, folder, and how far it is.
`scopes` are the variables that functions have hidden, the innermost function first; `traps` are what is to be done for
signals, `outerTraps` those of the shells around this one by their processes. `calls` is how deep functions are,
`mask` the permissions that new files lack, and `statusBefore` the status from before a trap that is running -/
structure Session where
  process : Nat
  isInner : Bool
  title : Octets
  parameters : List Octets
  bindings : List (Octets × Binding)
  scopes : List (List (Octets × Option Binding))
  functions : List (Octets × Nat × Command)
  options : Octets
  descriptors : List (Nat × Nat)
  work : Files.Place
  status : Nat
  outputStatus : Nat
  line : Nat
  faultLine : Nat
  functionLine : Nat
  builtin : Option Octets
  loops : Nat
  skip : Skip
  skipCount : Nat
  traps : List (Nat × Octets)
  outerTraps : List (Nat × List (Nat × Octets))
  buffer : List Octets
  nextOption : Nat × Nat
  documents : List Document
  nextDocument : Nat
  aliases : List (Octets × Octets)
  lastBackground : Nat
  hashed : List (Octets × Octets)
  calls : Nat
  mask : Nat
  statusBefore : Option Nat

/-- a command in the background that has not been run yet: the number of its process and the shell it runs in -/
structure Job where
  process : Nat
  shell : Session
  body : Command

/-- a machine; `pending` are signals that have come in for a process, `processes` counts those there have been, `jobs`
wait in the background and `done` are the statuses of those that have been run -/
structure Machine where
  store : Files.Store
  streams : List Stream
  shell : Session
  pending : List (Nat × Nat)
  processes : Nat
  jobs : List Job
  done : List (Nat × Nat)

/-- why an action ends early: a process that is killed is meant by its number, zero means the one that runs -/
inductive Stop where
  | failed
  | ended
  | killed (process signal : Nat)
  deriving DecidableEq, Repr, Inhabited

/-- an action on a machine that may end early -/
abbrev Run (ρ : Type) := ExceptT Stop (StateM Machine) ρ

instance {ρ : Type} : Inhabited (Run ρ) := ⟨throw .failed⟩

namespace Run

/-- gives up because something goes on too deep or too long -/
def exhausted {ρ : Type} : Run ρ := throw (.killed 0 11)

def shell : Run Session := do return (← get).shell

/-- changes the shell that is running -/
def onShell (f : Session → Session) : Run Unit := modify fun m => { m with shell := f m.shell }

/-- runs an action and gives its outcome, however it ends -/
def outcome {ρ : Type} (act : Run ρ) : Run (Except Stop ρ) := fun m =>
  let (r, m) := act.run m
  (.ok r, m)

def resume {ρ : Type} (r : Except Stop ρ) : Run ρ := fun m => (r, m)

/-- runs an action and then another one, however the first one ends -/
def ensuring {ρ : Type} (act : Run ρ) (cleanUp : Run Unit) : Run ρ := do
  let r ← outcome act
  cleanUp
  resume r

/-! ## Streams -/

/-- the stream that a descriptor leads to, with its number -/
def stream? (descriptor : Nat) : Run (Option (Nat × Stream)) := do
  let m ← get
  return (m.shell.descriptors.lookup descriptor).bind fun number => (m.streams[number]?).map (number, ·)

def openStream (stream : Stream) : Run Nat := do
  let m ← get
  set { m with streams := m.streams ++ [stream] }
  return m.streams.length

def setStream (number : Nat) (stream : Stream) : Run Unit :=
  modify fun m => { m with streams := m.streams.set number stream }

def fileAt (place : Files.Place) : Run Octets := do
  match (← get).store.entries.get? place with
  | some (.file octets) => return octets
  | _ => return []

def overwrite (content : Octets) (offset : Nat) (octets : Octets) : Octets :=
  content.take offset ++ List.replicate (offset - content.length) 0 ++ octets ++ content.drop (offset + octets.length)

def writeStream (number : Nat) (stream : Stream) (octets : Octets) : Run (Except OsCause Unit) := do
  match stream with
  | .sink chunks =>
    setStream number (.sink (octets :: chunks))
    return .ok ()
  | .file place offset reads true appends =>
    let content ← fileAt place
    let start := if appends then content.length else offset
    modify fun m => { m with store := m.store.put place (.file (overwrite content start octets)) }
    setStream number (.file place (start + octets.length) reads true appends)
    return .ok ()
  | .nothing => return .ok ()
  | _ => return .error .badDescriptor

def write (descriptor : Nat) (octets : Octets) : Run (Except OsCause Unit) := do
  if octets.isEmpty then return .ok ()
  match ← stream? descriptor with
  | none => return .error .badDescriptor
  | some (number, stream) => writeStream number stream octets

/-- reads at most `count` octets from a stream -/
def readStream (count : Nat) (number : Nat) (stream : Stream) : Run (Except OsCause Octets) := do
  match stream with
  | .source unread =>
    setStream number (.source (unread.drop count))
    return .ok (unread.take count)
  | .file place offset true writes appends =>
    let octets := ((← fileAt place).drop offset).take count
    setStream number (.file place (offset + octets.length) true writes appends)
    return .ok octets
  | .folder => return .error .isADirectory
  | .nothing => return .ok []
  | _ => return .error .badDescriptor

/-- reads at most `count` octets from a descriptor -/
def read (count descriptor : Nat) : Run (Except OsCause Octets) := do
  match ← stream? descriptor with
  | none => return .error .badDescriptor
  | some (number, stream) => readStream count number stream

def left (stream : Stream) : Run Nat := do
  match stream with
  | .source unread => return unread.length
  | .file place offset _ _ _ => return (← fileAt place).length - offset
  | _ => return 0

def readAll (descriptor : Nat) : Run (Except OsCause Octets) := do
  match ← stream? descriptor with
  | none => return .error .badDescriptor
  | some (number, stream) => readStream (← left stream) number stream

def written (number : Nat) : Run Octets := do
  match (← get).streams[number]? with
  | some (.sink chunks) => return chunks.reverse.flatten
  | _ => return []

/-! ## Descriptors -/

/-- makes a descriptor lead to a stream -/
def connect (descriptor number : Nat) : Run Unit :=
  onShell fun s =>
    { s with descriptors := (descriptor, number) :: s.descriptors.filter fun e => e.1 ≠ descriptor }

def disconnect (descriptor : Nat) : Run Unit :=
  onShell fun s => { s with descriptors := s.descriptors.filter fun e => e.1 ≠ descriptor }

/-- runs an action and puts the descriptors back afterwards -/
def keepingDescriptors {ρ : Type} (act : Run ρ) : Run ρ := do
  let descriptors := (← shell).descriptors
  ensuring act (onShell fun s => { s with descriptors := descriptors })

/-! ## Files -/

/-- what a path leads to: nothing there, an entry of the store, the empty device, a descriptor, or a tool -/
inductive Target where
  | free (place : Files.Place)
  | entry (place : Files.Place) (entry : Files.Entry)
  | device
  | descriptor (number : Nat)
  | tool (name : Octets)
  deriving Repr

def toolNames : List Octets := ["cat", "echo", "false", "printf", "sh", "tr", "true"]

/-- the device at a place, if it is one -/
def deviceAt? (place : Files.Place) : Option Target :=
  match place.map Octets.ofText with
  | [folder, name] =>
    if folder ≠ ("dev" : Octets) then none
    else if name = ("null" : Octets) then some .device
    else if name = ("stdin" : Octets) then some (.descriptor 0)
    else if name = ("stdout" : Octets) then some (.descriptor 1)
    else if name = ("stderr" : Octets) then some (.descriptor 2)
    else none
  | [folder, sub, name] =>
    if folder = ("dev" : Octets) ∧ sub = ("fd" : Octets) ∧ !name.isEmpty ∧ name.all Octet.isDigit then
      some (.descriptor (Octets.valueIn 10 name))
    else none
  | _ => none

/-- the tool at a place, if it is one -/
def toolAt? (place : Files.Place) : Option Octets :=
  let named (name : Octets) : Option Octets := if toolNames.contains name then some name else none
  match place.map Octets.ofText with
  | [folder, name] => if folder = ("bin" : Octets) then named name else none
  | [top, folder, name] => if top = ("usr" : Octets) ∧ folder = ("bin" : Octets) then named name else none
  | _ => none

def namesFolder (path : Octets) : Bool :=
  match path.reverse with
  | 47 :: _ => true
  | [46] => true
  | 46 :: 47 :: _ => true
  | _ => false

def locateIn (store : Files.Store) (work : Files.Place) (path : Octets) : Except OsCause Target := do
  if path.isEmpty then throw .notFound
  if Files.Store.pathLimit ≤ path.length then throw .nameTooLong
  let p := Files.Path.ofText path.text
  if p.root ≠ .relative then
    if let some found := deviceAt? p.parts then return found
  let store := { store with work := work }
  let place ← store.follow (store.start p) p.parts
  if let some found := deviceAt? place then return found
  match store.entries.get? place, namesFolder path with
  | some .folder, _ => return .entry place .folder
  | some (.file _), true => throw .notADirectory
  | some entry, false => return .entry place entry
  | none, folder =>
    match toolAt? place with
    | some name => if folder then throw .notADirectory else return .tool name
    | none =>
      if folder then throw .notFound
      return .free place

def locate (path : Octets) : Run (Except OsCause Target) := do
  let m ← get
  return locateIn m.store m.shell.work path

/-- opens a path for reading; the answer is the number of the stream -/
def openInput (path : Octets) : Run (Except OsCause Nat) := do
  match ← locate path with
  | .error cause => return .error cause
  | .ok (.free _) => return .error .notFound
  | .ok (.entry _ .folder) => return .ok (← openStream .folder)
  | .ok (.entry place (.file _)) => return .ok (← openStream (.file place 0 true false false))
  | .ok .device => return .ok (← openStream .nothing)
  | .ok (.tool _) => return .ok (← openStream (.source []))
  | .ok (.descriptor number) =>
    match ← stream? number with
    | none => return .error .notFound
    | some (_, .file place _ _ _ _) => return .ok (← openStream (.file place 0 true false false))
    | some (number, _) => return .ok number

/-- how a path is opened for writing -/
structure WriteMode where
  reads : Bool
  truncates : Bool
  appends : Bool
  deriving DecidableEq, Repr

def openFile (place : Files.Place) (mode : WriteMode) : Run Nat := do
  if mode.truncates then modify fun m => { m with store := m.store.put place (.file []) }
  openStream (.file place 0 mode.reads true mode.appends)

/-- opens a path for writing and makes the file if there is none; the answer is the number of the stream -/
def openOutput (path : Octets) (mode : WriteMode) : Run (Except OsCause Nat) := do
  match ← locate path with
  | .error .notFound => return .error (if path.getLast? = some 47 then .isADirectory else .notFound)
  | .error cause => return .error cause
  | .ok (.free place) =>
    modify fun m => { m with store := m.store.put place (.file []) }
    return .ok (← openFile place mode)
  | .ok (.entry _ .folder) => return .error .isADirectory
  | .ok (.entry place (.file _)) => return .ok (← openFile place mode)
  | .ok .device => return .ok (← openStream .nothing)
  | .ok (.tool _) => return .error .permissionDenied
  | .ok (.descriptor number) =>
    match ← stream? number with
    | none => return .error .notFound
    | some (_, .file place _ _ _ _) => return .ok (← openFile place mode)
    | some (number, _) => return .ok number

/-! ## Words of the shell -/

def shown (s : Session) (c : Complaint) : Octets :=
  let builtin : Octets := match s.builtin with
    | some name => name ++ (": " : Octets)
    | none => []
  s.title ++ ": " ++ Octets.decimal s.faultLine ++ ": " ++ builtin ++ c.message ++ "\n"

def complain (c : Complaint) : Run Unit := do
  let _ ← write 2 (shown (← shell) c)

def setStatus (status : Nat) : Run Unit := onShell fun s => { s with status := status }

/-- complains and fails with a status -/
def failWith {ρ : Type} (status : Nat) (c : Complaint) : Run ρ := do
  complain c
  setStatus status
  throw .failed

/-- complains and fails -/
def fail {ρ : Type} (c : Complaint) : Run ρ := failWith 2 c

/-- keeps output of a builtin command until it is done -/
def emit (octets : Octets) : Run Unit := onShell fun s => { s with buffer := octets :: s.buffer }

/-- writes what a builtin command has kept -/
def flush : Run (Except OsCause Unit) := do
  let octets := (← shell).buffer.reverse.flatten
  onShell fun s => { s with buffer := [] }
  write 1 octets

def option (letter : UInt8) : Run Bool := do return (← shell).options.contains letter

end Run

end Shell

end Bench

end InterfacePages
