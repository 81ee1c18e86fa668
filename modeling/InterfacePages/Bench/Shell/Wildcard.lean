/-
Patterns: `*`, `?` and brackets, where a backslash takes the octet after it as it is.

`matches` compares a pattern with octets. A bracket that is not closed stands for itself. `expandPaths` gives the paths
that agree with a pattern, name by name; a name that starts with a point has to be asked for.
-/
import InterfacePages.Bench.Shell.Machine

namespace InterfacePages

namespace Bench

namespace Shell

namespace Wildcard

/-- what a class in a bracket stands for: the class and the pattern after it -/
def classIn? (p : Octets) : Option ((UInt8 → Bool) × Octets) :=
  match p with
  | 58 :: rest =>
    let name := rest.takeWhile (· != 58)
    match rest.drop name.length, Octet.class? name with
    | 58 :: 93 :: after, some members => some (members, after)
    | _, _ => none
  | _ => none

/-- a bracket up to its end: whether the octet is among its members, and the pattern after it; `c` has been read -/
def bracketFrom (octet : UInt8) : Nat → Bool → UInt8 → Octets → Option (Bool × Octets)
  | 0, _, _, _ => none
  | fuel + 1, found, c, p =>
    let goOn (found : Bool) (p : Octets) : Option (Bool × Octets) :=
      match p with
      | [] => none
      | 93 :: rest => some (found, rest)
      | c :: rest => bracketFrom octet fuel found c rest
    let member (c : UInt8) (p : Octets) : Option (Bool × Octets) :=
      match p with
      | 45 :: 93 :: _ => goOn (found || octet == c) p
      | 45 :: 92 :: last :: rest => goOn (found || (decide (c ≤ octet) && decide (octet ≤ last))) rest
      | 45 :: last :: rest => goOn (found || (decide (c ≤ octet) && decide (octet ≤ last))) rest
      | p => goOn (found || octet == c) p
    if c = 91 then
      match classIn? p with
      | some (members, rest) => goOn (found || members octet) rest
      | none => member c p
    else if c = 92 then
      match p with
      | [] => none
      | c :: rest => member c rest
    else member c p

def bracket? (octet : UInt8) (p : Octets) : Option (Bool × Octets) :=
  let (inverted, p) :=
    match p with
    | 33 :: rest => (true, rest)
    | 94 :: rest => (true, rest)
    | p => (false, p)
  match p with
  | [] => none
  | c :: rest => (bracketFrom octet (rest.length + 1) false c rest).map fun (found, rest) => (found != inverted, rest)

def anyEnd (test : Octets → Bool) : Octets → Bool
  | [] => test []
  | c :: rest => test (c :: rest) || anyEnd test rest

/-- compares a pattern of a bounded length with octets -/
def matchesUpTo : Nat → Octets → Octets → Bool
  | 0, _, _ => false
  | fuel + 1, p, os =>
    match p, os with
    | [], os => os.isEmpty
    | 42 :: rest, os => anyEnd (matchesUpTo fuel rest) os
    | 63 :: rest, _ :: os => matchesUpTo fuel rest os
    | 63 :: _, [] => false
    | 92 :: c :: rest, o :: os => o == c && matchesUpTo fuel rest os
    | 92 :: _ :: _, [] => false
    | 91 :: _, [] => false
    | 91 :: rest, o :: os =>
      match bracket? o rest with
      | some (found, rest) => found && matchesUpTo fuel rest os
      | none => o == 91 && matchesUpTo fuel rest os
    | c :: rest, o :: os => o == c && matchesUpTo fuel rest os
    | _ :: _, [] => false

def agrees (pattern os : Octets) : Bool := matchesUpTo (pattern.length + 1) pattern os

/-! ## Paths -/

def closesBracket : Octets → Bool
  | [] => false
  | 92 :: _ :: rest => closesBracket rest
  | 93 :: _ => true
  | _ :: rest => closesBracket rest

/-- a name of a pattern that stands for more than itself -/
def isPattern : Octets → Bool
  | [] => false
  | 42 :: _ => true
  | 63 :: _ => true
  | 91 :: rest =>
    let members :=
      match rest with
      | 33 :: rest => rest
      | 94 :: rest => rest
      | rest => rest
    closesBracket (members.drop 1) || isPattern rest
  | 92 :: _ :: rest => isPattern rest
  | _ :: rest => isPattern rest

/-- a name without its backslashes -/
def literal : Octets → Octets
  | 92 :: c :: rest => c :: literal rest
  | c :: rest => c :: literal rest
  | [] => []

/-- the names of a pattern between its slashes -/
def names : Octets → List Octets
  | [] => [[]]
  | 92 :: 47 :: rest => [] :: names rest
  | 92 :: c :: rest =>
    match names rest with
    | name :: more => (92 :: c :: name) :: more
    | [] => [[92, c]]
  | 47 :: rest => [] :: names rest
  | c :: rest =>
    match names rest with
    | name :: more => (c :: name) :: more
    | [] => [[c]]

def asksForPoint : Octets → Bool
  | 46 :: _ => true
  | 92 :: 46 :: _ => true
  | _ => false

/-- a path leads to something -/
def isThere (path : Octets) : Run Bool := do
  match ← Run.locate path with
  | .error _ => return false
  | .ok (.free _) => return false
  | .ok _ => return true

/-- the names of a folder's members, with those of the folder itself and the one above -/
def members (path : Octets) : Run (List Octets) := do
  match ← Run.locate (if path.isEmpty then "." else path) with
  | .ok (.entry place .folder) =>
    let entries := (← get).store.entries.keys
    let below := entries.filterMap fun p =>
      if p.length = place.length + 1 ∧ place.isPrefixOf p then p.getLast?.map Octets.ofText else none
    return "." :: ".." :: below
  | _ => return []

/-- the paths that go on from a folder by names -/
def pathsFrom (before : Octets) : List Octets → Run (List Octets)
  | [] => do return if ← isThere before then [before] else []
  | name :: rest => do
    let slash : Octets := if rest.isEmpty then [] else [47]
    if isPattern name then
      let fitting := (← members before).filter fun member =>
        (member.head? ≠ some 46 || asksForPoint name) && agrees name member
      let found ← fitting.mapM fun member =>
        if rest.isEmpty then return [before ++ member] else pathsFrom (before ++ member ++ slash) rest
      return found.flatten
    else pathsFrom (before ++ literal name ++ slash) rest

/-- the paths that agree with a pattern, in order; none if it is no pattern -/
def paths (pattern : Octets) : Run (List Octets) := do
  let names := names pattern
  if names.any isPattern then return (← pathsFrom [] names).mergeSort Octets.le
  return []

end Wildcard

end Shell

end Bench

end InterfacePages
