/-
Commands that run.

Every kind of command has a function that says what it does, given what runs the commands in it. `evaluateTo` closes
the circle to a depth, and `evaluate` is the evaluator of a shell.
-/
import InterfacePages.Bench.Shell.Builtin.Input
import InterfacePages.Bench.Shell.Builtin.Naming
import InterfacePages.Bench.Shell.Builtin.Process
import InterfacePages.Bench.Shell.Condition
import InterfacePages.Bench.Shell.Launch
import InterfacePages.Bench.Shell.Redirection

namespace InterfacePages

namespace Bench

namespace Shell

/-- the most times that a loop is run -/
def mostRounds : Nat := 1000000

/-- the deepest that functions go -/
def deepestCall : Nat := 1000

namespace Evaluation

/-- what a command writes; its status is kept -/
def capture (evaluate : Evaluator) (command : Command) : Run Octets := do
  match command with
  | .nothing => return []
  | command =>
    Run.settle evaluate
    let sink ← Run.openStream (.sink [])
    let ending ← Run.inner evaluate do
      Run.connect 1 sink
      let _ ← evaluate ⟨false, true⟩ command
    let status ← Run.noticed ending
    Run.onShell fun s => { s with outputStatus := status }
    Run.written sink

/-! ## Builtin commands that need the evaluator -/

/-- leaves loops, or goes on with the next round -/
def leave (skip : Skip) : Builtin.Operation := fun args => do
  let n ← match args with
    | [] => pure 1
    | arg :: _ => do
      let n ← Builtin.number arg
      if n = 0 then Run.fail (.illegalNumber arg)
      pure n
  let n := min n (← Run.shell).loops
  if 0 < n then Run.onShell fun s => { s with skip := skip, skipCount := n }
  return 0

def exit : Builtin.Operation := fun args => do
  match args with
  | [] => Run.onShell fun s => { s with status := s.statusBefore.getD s.status }
  | arg :: _ => Run.setStatus (← Builtin.number arg)
  throw .ended

/-- leaves a function or a script -/
def return_ : Builtin.Operation := fun args => do
  let status ← match args with
    | [] => pure (← Run.shell).status
    | arg :: _ => Builtin.number arg
  Run.onShell fun s => { s with skip := .return_ }
  return status

/-- the path of a script: with a slash it is one, otherwise it is looked for in the folders of `PATH` -/
def scriptPath (name : Octets) : Run Octets := do
  if name.contains 47 then return name
  let paths := (Search.folders (← Search.searchPath)).map (Search.memberPath · name)
  match ← firstFile paths with
  | some path => return path
  | none => Run.fail (.unknownCommand name)
where
  /-- the first path that leads to a file -/
  firstFile : List Octets → Run (Option Octets)
    | [] => return none
    | path :: rest => do
      match ← Run.locate path with
      | .ok (.entry _ (.file _)) => return some path
      | _ => firstFile rest

/-- runs a script in this shell -/
def source (evaluate : Evaluator) : Builtin.Operation := fun args => do
  match args with
  | [] => return 0
  | name :: _ =>
    let path ← scriptPath name
    let script ← Startup.fileContent path
    Run.onShell fun s => { s with builtin := some path }
    let status ← Run.script evaluate .usual script
    Run.endReturn
    return status

/-- runs its arguments as a script -/
def eval (evaluate : Evaluator) (m : Manner) : Builtin.Operation := fun args =>
  Run.script evaluate ⟨m.tested, false⟩ (Octets.joinWith [32] args)

/-- starts a tool in place of the shell; without arguments only its redirections count -/
def exec (evaluate : Evaluator) : Builtin.Operation := fun args => do
  match args with
  | [] => return 0
  | name :: rest =>
    let path ← Search.searchPath
    let paths := if name.contains 47 then [name] else (Search.folders path).map (Search.memberPath · name)
    Launch.replace evaluate paths name rest

/-- works out a condition, which `[` wants to end with a bracket -/
def test (name : Octets) : Builtin.Operation := fun args => do
  let args ← if name = [91] then
      if args.getLast? = some [93] then pure args.dropLast else Run.fail .lacksBracket
    else pure args
  return if ← Condition.value args then 0 else 1

def builtin (evaluate : Evaluator) (m : Manner) (name : Octets) : Builtin.Operation :=
  match (Octets.text name).map Char.ofNat |> String.ofList with
  | "." => source evaluate
  | "[" => test name
  | "alias" => Builtin.alias_
  | "break" => leave .break_
  | "cd" => Builtin.cd
  | "chdir" => Builtin.cd
  | "command" => Builtin.command
  | "continue" => leave .continue_
  | "echo" => Builtin.echo
  | "eval" => eval evaluate m
  | "exec" => exec evaluate
  | "exit" => exit
  | "export" => Builtin.export_
  | "false" => fun _ => return 1
  | "getopts" => Builtin.getopts
  | "hash" => Builtin.hash
  | "jobs" => fun _ => return 0
  | "kill" => Builtin.kill
  | "local" => Builtin.local_
  | "printf" => formatted
  | "pwd" => Builtin.pwd
  | "read" => Builtin.read
  | "readonly" => Builtin.readonly
  | "return" => return_
  | "set" => Builtin.set_
  | "shift" => Builtin.shift
  | "test" => test name
  | "times" => Builtin.times
  | "trap" => Builtin.trap
  | "type" => Builtin.type
  | "ulimit" => Builtin.ulimit
  | "umask" => Builtin.umask
  | "unalias" => Builtin.unalias
  | "unset" => Builtin.unset
  | "wait" => fun args => do
    Run.settle evaluate
    Builtin.wait args
  | "bg" => fun _ => Run.fail (.usage "No current job")
  | "fg" => fun _ => Run.fail (.usage "No current job")
  | _ => fun _ => return 0
where
  /-- writes arguments in a format -/
  formatted (args : List Octets) : Run Nat := do
    let (_, rest) ← Builtin.options [] args
    match rest with
    | [] => Run.fail (.usage "usage: printf format [arg ...]")
    | format :: args => Builtin.printf format args

/-! ## Simple commands -/

/-- the words of a simple command as far as they have been expanded, where the name of the command is among them, and
the words that are left -/
structure Gathering where
  all : List Octets
  start : Nat
  rest : List Word
  deriving Inhabited

/-- expands words until there is one at an index or none is left -/
def gatherUpTo (expand : Word → Run (List Octets)) (all : List Octets) (i : Nat) :
    List Word → Run (List Octets × List Word)
  | [] => return (all, [])
  | w :: rest => do
    if i < all.length then return (all, w :: rest)
    gatherUpTo expand (all ++ (← expand w)) i rest

/-- a gathering with a word at an index, if there is one -/
def Gathering.reach (expand : Word → Run (List Octets)) (g : Gathering) (i : Nat) : Run Gathering := do
  let (all, rest) ← gatherUpTo expand g.all i g.rest
  return { g with all := all, rest := rest }

/-- what follows `command` and its options: where the next name is, if there is one and nothing is to be told about
it, and whether the usual path counts -/
def afterCommand (expand : Word → Run (List Octets)) : Nat → Gathering → Nat → Bool →
    Run (Gathering × Option (Nat × Bool))
  | 0, g, _, _ => return (g, none)
  | fuel + 1, g, i, usual => do
    let g ← g.reach expand i
    match g.all[i]? with
    | none => return (g, none)
    | some [45, 45] =>
      let g ← g.reach expand (i + 1)
      return (g, if i + 1 < g.all.length then some (i + 1, usual) else none)
    | some (45 :: c :: letters) =>
      if (c :: letters).all (· == 112) then afterCommand expand fuel g (i + 1) true else return (g, none)
    | some _ => return (g, some (i, usual))

/-- what is known of a simple command by its first words: whether functions count, whether the usual path does, whether
the command is special, as far as it is builtin, and whether further words can be assignments -/
structure Prospect where
  functions : Bool
  usualPath : Bool
  special : Option Bool
  assigns : Bool
  replaces : Bool
  deriving DecidableEq, Repr, Inhabited

/-- finds out what the first words of a simple command say, each `command` at the beginning in its turn -/
def prospect (expand : Word → Run (List Octets)) : Nat → Gathering → Prospect → Run (Gathering × Prospect)
  | 0, g, p => return (g, p)
  | fuel + 1, g, p => do
    match g.all[g.start]? with
    | none => return (g, p)
    | some name =>
      match ← Search.inShell? p.functions name with
      | some (.builtin name) =>
        let special := p.special.getD (Search.isSpecial name)
        let p := { p with special := some special, assigns := Search.assigns name, replaces := name == ("exec" : Octets) }
        if name ≠ ("command" : Octets) then return (g, p)
        let (g, next) ← afterCommand expand (g.all.length + g.rest.length + 2) g (g.start + 1) p.usualPath
        match next with
        | none => return (g, p)
        | some (i, usual) =>
          prospect expand fuel { g with start := i } { p with functions := false, usualPath := usual }
      | _ => return (g, { p with assigns := false, replaces := false })

/-- expands the words that are left; an assignment stays one word if assignments count -/
def gatherRest (capture : Command → Run Octets) (assigns : Bool) : List Word → Run (List Octets)
  | [] => return []
  | w :: rest => do
    let first ← if assigns && Reader.isAssignment w then do pure [← Expansion.text capture .assignment w]
      else Expansion.words capture w
    return first ++ (← gatherRest capture assigns rest)

/-- the stream that shows commands that run, if they are shown -/
def trace (number : Option Nat) (words : List Octets) : Run Unit := do
  if !(← Run.option 120) then return
  let lead := (← Run.value? "PS4").getD []
  match number with
  | none => return
  | some number =>
    match (← get).streams[number]? with
    | none => return
    | some stream =>
      let _ ← Run.writeStream number stream (lead ++ Octets.joinWith [32] words ++ "\n")

/-- assigns variables; `keeps` says that they stay, and `exports` that tools see them. The answer has the assignments -/
def assignAll (capture : Command → Run Octets) (keeps exports : Bool) : List Word → Run (List Octets)
  | [] => return []
  | w :: rest => do
    let text ← Expansion.text capture .assignment w
    let (name, value) := Run.splitAssignment text
    if !keeps then Run.hide name
    if keeps && !exports then Run.assign name (value.getD []) else Run.assignExported name (value.getD [])
    return text :: (← assignAll capture keeps exports rest)

/-- runs a builtin command; `special` says that a fault in it ends the shell -/
def runBuiltin (special : Bool) (name : Octets) (act : Run Nat) : Run Nat := do
  let before := (← Run.shell).builtin
  Run.onShell fun s => { s with builtin := some name }
  let r ← Run.outcome do
    let status ← act
    Run.onShell fun s => { s with builtin := some name }
    match ← Run.flush with
    | .ok () => Run.setStatus status
    | .error _ =>
      Run.complain (.cannotWrite name)
      Run.setStatus (if status % 2 = 0 then status + 1 else status)
  Run.onShell fun s => { s with builtin := before }
  match r with
  | .ok () => return (← Run.shell).status
  | .error .failed => if special then throw .failed else return (← Run.shell).status
  | .error stop => throw stop

def runFunction (evaluate : Evaluator) (m : Manner) (line : Nat) (body : Command) (args : List Octets) : Run Nat := do
  let before ← Run.shell
  if deepestCall ≤ before.calls then Run.fail .tooDeep
  Run.onShell fun s =>
    { s with parameters := args, nextOption := (1, 0), loops := 0, functionLine := line, calls := s.calls + 1 }
  let _ ← Run.ensuring (evaluate ⟨m.tested, false⟩ body) do
    Run.endReturn
    Run.onShell fun s =>
      { s with
        parameters := before.parameters, nextOption := before.nextOption, loops := before.loops,
        functionLine := before.functionLine, calls := before.calls }
  return (← Run.shell).status

def runFound (evaluate : Evaluator) (m : Manner) (special : Bool) (found : Found) (args : List Octets) : Run Nat := do
  match args with
  | [] => return (← Run.shell).outputStatus
  | name :: rest =>
    match found with
    | .builtin builtinName => runBuiltin special name (builtin evaluate m builtinName rest)
    | .function line body => runFunction evaluate m line body rest
    | .file paths =>
      if m.last && (← Run.shell).traps.all (·.2.isEmpty) then Launch.replace evaluate paths name rest
      else Launch.waitFor evaluate paths name rest
    | .unknown cause =>
      Run.complain (.cannotStart name cause)
      return 127

/-- runs a simple command once its words and the moves of its descriptors are known -/
def runSimple (evaluate : Evaluator) (m : Manner) (p : Prospect) (all args : List Octets) (assignments : List Word)
    (moves : List Move) : Run Nat := do
  let special := p.special == some true
  let traced := (← Run.shell).descriptors.lookup 2
  if !(← Run.moved (capture evaluate) moves) then
    Run.setStatus 2
    if special then throw .failed
    return 2
  let keeps := args.isEmpty || special
  let assigned ← assignAll (capture evaluate) keeps (p.replaces && 1 < args.length) assignments
  trace traced (assigned ++ all)
  let path ← if p.usualPath then pure Search.usualPath else Search.searchPath
  match args with
  | [] => runFound evaluate m special (.unknown .notFound) []
  | name :: _ => runFound evaluate m special (← Search.command p.functions path name) args

def simple (evaluate : Evaluator) (m : Manner) (line : Nat) (assignments words : List Word)
    (redirects : List Redirect) : Run Nat := do
  Run.onShell fun s => { s with faultLine := line, outputStatus := 0 }
  let expand := Expansion.words (capture evaluate)
  let g ← Gathering.reach expand ⟨[], 0, words⟩ 0
  let (g, p) ← prospect expand (words.length + g.all.length + 2) g ⟨true, false, none, false, false⟩
  let all := g.all ++ (← gatherRest (capture evaluate) p.assigns g.rest)
  let args := all.drop g.start
  let moves ← Run.moves (capture evaluate) redirects
  let run := runSimple evaluate m p all args assignments moves
  let run := if args.isEmpty || p.special == some true then run else Run.inScope run
  if p.replaces then run else Run.keepingDescriptors run

/-! ## Other commands -/

def redirected (evaluate : Evaluator) (m : Manner) (line : Nat) (body : Command) (redirects : List Redirect) :
    Run Nat := do
  Run.onShell fun s => { s with faultLine := line }
  let moves ← Run.moves (capture evaluate) redirects
  Run.keepingDescriptors do
    if ← Run.moved (capture evaluate) moves then evaluate ⟨m.tested, false⟩ body else return 2

def subshell (evaluate : Evaluator) (m : Manner) (line : Nat) (body : Command) (redirects : List Redirect) :
    Run Nat := do
  Run.onShell fun s => { s with faultLine := line }
  let moves ← Run.moves (capture evaluate) redirects
  Run.settle evaluate
  let ending ← Run.inner evaluate do
    Run.applyMoves (capture evaluate) moves
    let _ ← evaluate ⟨m.tested, true⟩ body
  Run.noticed ending

/-- runs the commands of a pipeline, each on what the one before has written -/
def stages (evaluate : Evaluator) (m : Manner) : Option Nat → List Command → Run Nat
  | _, [] => return 0
  | input, command :: rest => do
    let output ← if rest.isEmpty then pure none else some <$> Run.openStream (.sink [])
    let ending ← Run.inner evaluate do
      input.forM (Run.connect 0)
      output.forM (Run.connect 1)
      let _ ← evaluate ⟨m.tested, true⟩ command
    let status ← Run.noticed ending
    match output with
    | none => return status
    | some number =>
      let written ← Run.openStream (.source (← Run.written number))
      stages evaluate m (some written) rest

/-- leaves a command to the background, where it has no input -/
def inBackground (body : Command) : Run Nat := do
  let nothing ← Run.openStream .nothing
  modify fun m =>
    let process := m.processes + 1
    let inner := { m.shell.forked with descriptors := (0, nothing) :: m.shell.descriptors.filter (·.1 ≠ 0) }
    { m with
      processes := process, jobs := m.jobs ++ [⟨process, inner, body⟩], shell := { m.shell with lastBackground := process } }
  return 0

def afterRound : Run Skip := do
  let s ← Run.shell
  match s.skip with
  | .none => return .none
  | .return_ => return .return_
  | skip =>
    if s.skipCount ≤ 1 then
      Run.onShell fun s => { s with skip := .none, skipCount := 0 }
      return skip
    else
      Run.onShell fun s => { s with skipCount := s.skipCount - 1 }
      return .break_

def inLoop (act : Run Nat) : Run Nat := do
  Run.onShell fun s => { s with loops := s.loops + 1 }
  Run.ensuring act (Run.onShell fun s => { s with loops := s.loops - 1 })

/-- runs a loop with a test at most `fuel` times -/
def rounds (evaluate : Evaluator) (m : Manner) (untilTrue : Bool) (test body : Command) : Nat → Nat → Run Nat
  | 0, _ => Run.exhausted
  | fuel + 1, status => do
    let tested ← evaluate ⟨true, false⟩ test
    match ← afterRound with
    | .return_ => return tested
    | .break_ => return status
    | .continue_ => rounds evaluate m untilTrue test body fuel status
    | .none =>
      if (tested == 0) == untilTrue then return status
      let status ← evaluate ⟨m.tested, false⟩ body
      match ← afterRound with
      | .return_ => return status
      | .break_ => return status
      | _ => rounds evaluate m untilTrue test body fuel status

def eachWord (evaluate : Evaluator) (m : Manner) (name : Octets) (body : Command) : List Octets → Nat → Run Nat
  | [], status => return status
  | word :: rest, _ => do
    Run.assign name word
    let status ← evaluate ⟨m.tested, false⟩ body
    match ← afterRound with
    | .return_ => return status
    | .break_ => return status
    | _ => eachWord evaluate m name body rest status

def anyFits (capture : Command → Run Octets) (os : Octets) : List Word → Run Bool
  | [] => return false
  | w :: rest => do
    if Wildcard.agrees (← Expansion.pattern capture w) os then return true
    anyFits capture os rest

def firstCase (evaluate : Evaluator) (m : Manner) (os : Octets) : List (List Word × Command) → Run Nat
  | [] => return 0
  | (patterns, body) :: rest => do
    if ← anyFits (capture evaluate) os patterns then
      match body with
      | .nothing => return 0
      | body => evaluate m body
    else firstCase evaluate m os rest

/-- the second command of a list, unless something is left undone -/
def thenRun (evaluate : Evaluator) (m : Manner) (second : Command) : Run Nat := do
  if (← Run.shell).skip ≠ .none then return (← Run.shell).status
  evaluate m second

def perform (evaluate : Evaluator) (m : Manner) : Command → Run Nat
  | .nothing => return (← Run.shell).status
  | .simple line assignments words redirects => simple evaluate m line assignments words redirects
  | .pipeline commands false => do
    Run.settle evaluate
    stages evaluate m none commands
  | .pipeline commands true => inBackground (.pipeline commands false)
  | .redirected line body redirects => redirected evaluate m line body redirects
  | .subshell line body redirects => subshell evaluate m line body redirects
  | .background line body redirects =>
    inBackground (if redirects.isEmpty then body else .redirected line body redirects)
  | .negated body => do return if (← evaluate ⟨true, false⟩ body) = 0 then 1 else 0
  | .both first second => do
    let status ← evaluate ⟨true, false⟩ first
    if status = 0 then thenRun evaluate m second else return status
  | .either first second => do
    let status ← evaluate ⟨true, false⟩ first
    if status = 0 then return 0 else thenRun evaluate m second
  | .sequence first second => do
    let _ ← evaluate ⟨m.tested, false⟩ first
    thenRun evaluate m second
  | .branch test yes no => do
    let status ← evaluate ⟨true, false⟩ test
    if (← Run.shell).skip ≠ .none then return status
    if status = 0 then evaluate m yes
    else
      match no with
      | .nothing => return 0
      | no => evaluate m no
  | .repeated untilTrue test body => inLoop (rounds evaluate m untilTrue test body mostRounds 0)
  | .each line name words body => do
    Run.onShell fun s => { s with faultLine := line }
    let words ← Expansion.allWords (capture evaluate) words
    inLoop (eachWord evaluate m name body words 0)
  | .choice line word cases => do
    Run.onShell fun s => { s with faultLine := line }
    let os ← Expansion.text (capture evaluate) .single word
    firstCase evaluate m os cases
  | .define line name body => do
    Run.onShell fun s => { s with functions := (name, line, body) :: s.functions.filter (·.1 ≠ name) }
    return 0

/-- a command whose failure ends a shell that stops at failures -/
def isChecked : Command → Bool
  | .simple _ _ _ _ => true
  | .pipeline _ _ => true
  | .subshell _ _ _ => true
  | .background _ _ _ => true
  | _ => false

/-- runs a command between the traps before and after it -/
def step (evaluate : Evaluator) : Evaluator := fun m command => do
  match command with
  | .nothing => return (← Run.shell).status
  | command =>
    if ← Run.option 110 then return 0
    Run.traps evaluate
    Run.setStatus (← perform evaluate m command)
    let status := (← Run.shell).status
    Run.traps evaluate
    if isChecked command && !m.tested && status ≠ 0 then
      if ← Run.option 101 then throw .ended
    return (← Run.shell).status

/-- runs commands to a depth -/
def evaluateTo : Nat → Evaluator
  | 0, _, _ => Run.exhausted
  | depth + 1, m, command => step (evaluateTo depth) m command

end Evaluation

/-- how deep commands may stand inside commands, functions and scripts -/
def deepestCommand : Nat := 100000

def evaluate : Evaluator := Evaluation.evaluateTo deepestCommand

end Shell

end Bench

end InterfacePages
