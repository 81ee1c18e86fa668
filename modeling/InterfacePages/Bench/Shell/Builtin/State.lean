/-
The builtin commands that show or change what a shell keeps: variables, parameters, options, its folder.
-/
import InterfacePages.Bench.Shell.Builtin.Output

namespace InterfacePages

namespace Bench

namespace Shell

namespace Builtin

/-! ## Options of builtin commands -/

/-- reads options of one letter; a colon after a letter says that it takes an argument. The answer has the options with
their arguments, and the arguments after them -/
def optionsFrom (known : Octets) : Nat → List (UInt8 × Octets) → List Octets → Run (List (UInt8 × Octets) × List Octets)
  | 0, found, args => return (found.reverse, args)
  | fuel + 1, found, args => do
    match args with
    | [45, 45] :: rest => return (found.reverse, rest)
    | (45 :: c :: letters) :: rest =>
      if c = 58 || !known.contains c then Run.fail (.badOption [45, c])
      let takes := (known.dropWhile (· != c)).drop 1 |>.head? |> (· == some 58)
      if !takes then
        let args := if letters.isEmpty then rest else (45 :: letters) :: rest
        optionsFrom known fuel ((c, []) :: found) args
      else if !letters.isEmpty then optionsFrom known fuel ((c, letters) :: found) rest
      else
        match rest with
        | [] => Run.fail (.lacksArgument [45, c])
        | given :: rest => optionsFrom known fuel ((c, given) :: found) rest
    | args => return (found.reverse, args)

/-- reads the options of a builtin command -/
def options (known : Octets) (args : List Octets) : Run (List (UInt8 × Octets) × List Octets) :=
  optionsFrom known ((args.flatten).length + args.length + 1) [] args

/-- the number that an argument writes, from zero to the largest that counts -/
def number (os : Octets) : Run Nat := do
  match Sum.ofDecimal os with
  | .ok n => if 0 ≤ n ∧ n ≤ 2147483647 then return n.toNat else Run.fail (.illegalNumber os)
  | .error c => Run.fail c

def line (os : Octets) : Run Unit := Run.emit (os ++ [10])

/-! ## Variables -/

/-- octets between apostrophes, so that the shell reads them as they are; `inMarks` says that apostrophes are being
gathered between quotation marks -/
def quotedFrom : Bool → Octets → Octets
  | false, [] => [39]
  | true, [] => [34]
  | false, c :: rest => if c = 39 then 39 :: 34 :: 39 :: quotedFrom true rest else c :: quotedFrom false rest
  | true, c :: rest => if c = 39 then 39 :: quotedFrom true rest else 34 :: 39 :: c :: quotedFrom false rest

/-- octets between apostrophes -/
def quoted (os : Octets) : Octets := 39 :: quotedFrom false os

/-- writes the variables that pass a test, in order -/
def showVariables (lead : Octets) (test : Binding → Bool) : Run Nat := do
  let shown := (← Run.shell).bindings.filter fun e => test e.2
  let sorted := shown.mergeSort fun a b => Octets.le a.1 b.1
  for (name, binding) in sorted do
    let value : Octets := match binding.value with
      | some value => 61 :: quoted value
      | none => []
    line (lead ++ name ++ value)
  return 0

def checkName (name : Octets) : Run Unit := do
  if !name.isName then Run.fail (.badName name)

/-- marks variables, which are given values on the way -/
def markVariables (lead : Octets) (test : Binding → Bool) (mark : Binding → Binding) : Operation := fun args => do
  let (found, names) ← options "p" args
  if !found.isEmpty || names.isEmpty then return ← showVariables lead test
  for arg in names do
    let (name, value) := Run.splitAssignment arg
    checkName name
    match value with
    | some value => do
      Run.assign name value
      onBinding name mark
    | none => onBinding name mark
  return 0
where
  /-- changes what is kept beside the value -/
  onBinding (name : Octets) (mark : Binding → Binding) : Run Unit :=
    Run.onShell fun s => s.bind name (some (mark ((s.binding? name).getD ⟨none, false, false⟩)))

/-- lets tools see variables -/
def export_ : Operation := markVariables "export " (·.exported) fun b => { b with exported := true }

def readonly : Operation := markVariables "readonly " (·.readOnly) fun b => { b with readOnly := true }

/-- takes variables or functions away -/
def unset : Operation := fun args => do
  let (found, names) ← options "vf" args
  let functions := found.getLast?.map Prod.fst == some 102
  for name in names do
    if functions then
      Run.onShell fun s => { s with functions := s.functions.filter (·.1 ≠ name) }
    else do
      checkName name
      Run.unset name
  return 0

/-- keeps variables inside a function -/
def local_ : Operation := fun args => do
  if (← Run.shell).scopes.isEmpty then Run.fail .outsideFunction
  for arg in args do
    let (name, value) := Run.splitAssignment arg
    if name ≠ [45] then
      checkName name
      Run.hide name
      match value with
      | some value => Run.assign name value
      | none => pure ()
  return 0

/-! ## Parameters and options of the shell -/

/-- the options of the shell by name, in the order in which they are shown -/
def optionNames : List (Octets × UInt8) := [
  ("errexit", 101), ("noglob", 102), ("ignoreeof", 73), ("interactive", 105), ("monitor", 109), ("noexec", 110),
  ("stdin", 115), ("xtrace", 120), ("verbose", 118), ("vi", 86), ("emacs", 69), ("noclobber", 67), ("allexport", 97),
  ("notify", 98), ("nounset", 117), ("privileged", 112), ("nolog", 0), ("debug", 1)]

/-- turns an option on or off -/
def setOption (on : Bool) (c : UInt8) : Run Unit :=
  Run.onShell fun s =>
    let others := s.options.filter (· != c)
    { s with options := if on then c :: others else others }

/-- turns the option with a letter on or off -/
def setLetter (on : Bool) (c : UInt8) : Run Unit := do
  if c < 32 || !(optionNames.map Prod.snd).contains c then Run.fail (.badOption [45, c])
  setOption on c

/-- shows which options are on -/
def showOptions (on : Bool) : Run Unit := do
  let s ← Run.shell
  if on then line "Current option settings"
  for (name, c) in optionNames do
    let isOn := s.options.contains c
    let word : Octets := if isOn then "on" else "off"
    if on then line (name ++ List.replicate (16 - name.length) 32 ++ word)
    else
      let lead : Octets := if isOn then "set -o " else "set +o "
      line (lead ++ name)

/-- turns the option with a name on or off; without a name, all are shown -/
def setNamed (on : Bool) (name : Option Octets) : Run Unit := do
  match name with
  | none => showOptions on
  | some name =>
    match optionNames.lookup name with
    | some c => setOption on c
    | none => Run.fail (.badSetting name)

/-- what the options at the beginning of some arguments leave: whether a script is among the arguments, and those after
the options; `none` after `--` if nothing follows -/
structure OptionsRead where
  hasScript : Bool
  ended : Bool
  rest : List Octets
  deriving Inhabited

/-- turns the options of one argument on or off; the answer says whether a script follows -/
def setLetters (starting on : Bool) : Octets → Bool → List Octets → Run (Bool × List Octets)
  | [], script, rest => return (script, rest)
  | c :: letters, script, rest => do
    if starting && on && c == 99 then setLetters starting on letters true rest
    else if starting && c == 108 then setLetters starting on letters script rest
    else if c = 111 then do
      setNamed on rest.head?
      setLetters starting on letters script rest.tail
    else do
      setLetter on c
      setLetters starting on letters script rest

/-- turns options on or off; `starting` says that a shell starts with them -/
def setOptions (starting : Bool) : Nat → Bool → List Octets → Run OptionsRead
  | 0, script, args => return ⟨script, false, args⟩
  | fuel + 1, script, args => do
    match args with
    | [45] :: rest =>
      if !starting then
        setOption false 120
        setOption false 118
      return ⟨script, false, rest⟩
    | [45, 45] :: rest => return ⟨script, true, rest⟩
    | (45 :: letters) :: rest => do
      let (script, rest) ← setLetters starting true letters script rest
      setOptions starting fuel script rest
    | (43 :: letters) :: rest => do
      let (script, rest) ← setLetters starting false letters script rest
      setOptions starting fuel script rest
    | args => return ⟨script, false, args⟩

def setParameters (parameters : List Octets) : Run Unit :=
  Run.onShell fun s => { s with parameters := parameters, nextOption := (1, 0) }

/-- turns options on or off and changes the parameters; without arguments the variables are shown -/
def set_ : Operation := fun args => do
  if args.isEmpty then return ← showVariables [] fun b => b.value.isSome
  let read ← setOptions false (args.length + 1) false args
  if read.ended || !read.rest.isEmpty then setParameters read.rest
  return 0

/-- drops parameters from the front -/
def shift : Operation := fun args => do
  let n ← match args with
    | [] => pure 1
    | arg :: _ => number arg
  let s ← Run.shell
  if s.parameters.length < n then Run.fail .cannotShift
  setParameters (s.parameters.drop n)
  return 0

/-! ## The folder -/

def placePath (place : Files.Place) : Octets := 47 :: Octets.joinWith [47] (place.map Octets.ofText)

def cd : Operation := fun args => do
  let (_, rest) ← options "LP" args
  let (target, shows) ← match rest.head? with
    | none => pure ((← Run.value? "HOME").getD [], false)
    | some [45] => pure ((← Run.value? "OLDPWD").getD [], true)
    | some path => pure (path, false)
  if target.isEmpty then return 0
  match ← Run.locate target with
  | .ok (.entry place .folder) =>
    let before := (← Run.shell).work
    Run.onShell fun s => { s with work := place }
    Run.assign "OLDPWD" (placePath before)
    Run.assign "PWD" (placePath place)
    if shows then line (placePath place)
    return 0
  | _ => Run.fail (.cannotChange target)

def pwd : Operation := fun args => do
  let _ ← options "LP" args
  line (placePath (← Run.shell).work)
  return 0

/-! ## Other names -/

/-- shows or makes other names for commands -/
def alias_ : Operation := fun args => do
  let shown (name value : Octets) : Octets := name ++ "=" ++ quoted value
  if args.isEmpty then
    for (name, value) in (← Run.shell).aliases do line (shown name value)
    return 0
  let mut status := 0
  for arg in args do
    let (name, value) := Run.splitAssignment arg
    match value with
    | some value =>
      Run.onShell fun s => { s with aliases := (name, value) :: s.aliases.filter (·.1 ≠ name) }
    | none =>
      match (← Run.shell).aliases.lookup name with
      | some value => line (shown name value)
      | none =>
        let _ ← Run.write 2 ("alias: " ++ name ++ " not found\n")
        status := 1
  return status

/-- takes other names away -/
def unalias : Operation := fun args => do
  let (found, names) ← options "a" args
  if !found.isEmpty then
    Run.onShell fun s => { s with aliases := [] }
    return 0
  let mut status := 0
  for name in names do
    if ((← Run.shell).aliases.lookup name).isNone then
      let _ ← Run.write 2 ("unalias: " ++ name ++ " not found\n")
      status := 1
    else Run.onShell fun s => { s with aliases := s.aliases.filter (·.1 ≠ name) }
  return status

/-! ## Limits -/

/-- the bits that letters of permissions stand for, in each class; `p` are the permissions there are -/
def permissionBits (p : Nat) (letter : UInt8) : Nat :=
  match Char.ofUInt8 letter with
  | 'r' => 4
  | 'w' => 2
  | 'x' => 1
  | 'X' => if p % 2 + p / 8 % 2 + p / 64 % 2 = 0 then 0 else 1
  | 'u' => p / 64 % 8
  | 'g' => p / 8 % 8
  | 'o' => p % 8
  | _ => 0

/-- changes the permissions of classes, which `classes` has a bit for each of, by a sign and bits -/
def changePermissions (p classes : Nat) (sign : UInt8) (bits : Nat) : Nat :=
  let all := classes * bits
  if sign = 43 then p ||| all
  else if sign = 45 then p &&& (511 ^^^ all)
  else (p &&& (511 ^^^ classes * 7)) ||| all

/-- changes permissions by signs with letters after them; `none` if there is anything else -/
def changesUpTo (classes : Nat) : Nat → Nat → Octets → Option Nat
  | _, p, [] => some p
  | 0, _, _ => none
  | fuel + 1, p, sign :: rest =>
    let letters := rest.takeWhile ("rwxXstugo" : Octets).contains
    let bits := letters.foldl (fun n c => n ||| permissionBits p c) 0
    if ("+-=" : Octets).contains sign then
      changesUpTo classes fuel (changePermissions p classes sign bits) (rest.drop letters.length)
    else none

/-- changes permissions by a clause, which begins with the classes it is about -/
def changeClause (p : Option Nat) (clause : Octets) : Option Nat :=
  let who := clause.takeWhile ("ugoa" : Octets).contains
  let one (c : UInt8) : Nat := if c = 117 then 64 else if c = 103 then 8 else if c = 111 then 1 else 73
  let classes := if who.isEmpty then 73 else who.foldl (fun n c => n ||| one c) 0
  p.bind fun p => changesUpTo classes clause.length p (clause.drop who.length)

def permissionLetters (n : Nat) : Octets :=
  (if n / 4 % 2 = 1 then [114] else []) ++ (if n / 2 % 2 = 1 then [119] else []) ++ if n % 2 = 1 then [120] else []

/-- shows or changes the permissions that new files lack; nothing else depends on them -/
def umask : Operation := fun args => do
  let (found, rest) ← options "S" args
  let mask := (← Run.shell).mask
  let p := 511 ^^^ mask
  match rest with
  | [] =>
    let digit (n : Nat) : Octets := Octets.decimal (n % 8)
    if found.isEmpty then line ("0" ++ digit (mask / 64) ++ digit (mask / 8) ++ digit mask)
    else
      line ("u=" ++ permissionLetters (p / 64) ++ ",g=" ++ permissionLetters (p / 8) ++ ",o=" ++ permissionLetters p)
  | mode :: _ =>
    if (mode.head?.map Octet.isDigit).getD false then
      if !mode.all Octet.isOctal then Run.fail (.illegalNumber mode)
      Run.onShell fun s => { s with mask := Octets.valueIn 8 mode % 512 }
    else
      match (splitAtCommas [] mode).foldl changeClause (some p) with
      | some p => Run.onShell fun s => { s with mask := 511 ^^^ p }
      | none => Run.fail (.usage ("Illegal mode: " ++ mode))
  return 0
where
  /-- splits at commas; `taken` is the part being read, last octet first -/
  splitAtCommas (taken : Octets) : Octets → List Octets
    | [] => [taken.reverse]
    | c :: rest => if c = 44 then taken.reverse :: splitAtCommas [] rest else splitAtCommas (c :: taken) rest

def ulimit : Operation := fun _ => do
  line "unlimited"
  return 0

/-- the time used so far -/
def times : Operation := fun _ => do
  line "0m0.000000s 0m0.000000s"
  line "0m0.000000s 0m0.000000s"
  return 0

end Builtin

end Shell

end Bench

end InterfacePages
