/-
From aliases to modules.

Generated code names the modules it needs by aliases, for what they are capable of. A resolver turns an alias into a
module specifier for one output file: the client's own specifier, re-anchored for the depth of the file, or a library
module that depends on the strategy. What is no alias stays as it is.
-/
import InterfacePages.Import.Table

namespace InterfacePages

/-- where library symbols come from: one package, a package for each capability, or the client -/
inductive Strategy where
  | groupedRoot
  | granular
  | callerRelative
  deriving DecidableEq, Repr

namespace Strategy

def all : List Strategy := [.groupedRoot, .granular, .callerRelative]

def label : Strategy → Text
  | .groupedRoot => "grouped-root"
  | .granular => "granular"
  | .callerRelative => "caller-relative"

def ofLabel (t : Text) : Except Fault Strategy :=
  match all.find? (·.label == t) with
  | some strategy => .ok strategy
  | none => .error (.unknownStrategy t)

end Strategy

/-- how aliases become modules for one output file: the strategy, the specifier of the client as the outermost files
write it, and how many folders deeper the file is -/
structure Resolver where
  strategy : Strategy
  client : Text
  depth : Int
  deriving DecidableEq, Repr

namespace Resolver

/-- the client's specifier unless another is given -/
def standardClient : Text := "../"

def clientAlias : Text := "generatedClient"

/-- the alias of the view library -/
def reactAlias : Text := "react"

def rootPackage : Text := "@solana/kit"

def packages : List (Text × Text) := [
  ("solanaAccounts", "@solana/accounts"),
  ("solanaAddresses", "@solana/addresses"),
  ("solanaCodecsCore", "@solana/codecs"),
  ("solanaFunctional", "@solana/functional"),
  ("solanaKeys", "@solana/keys"),
  ("solanaPrograms", "@solana/programs"),
  ("solanaRpc", "@solana/rpc"),
  ("solanaRpcSubscriptions", "@solana/rpc-subscriptions"),
  ("solanaRpcTypes", "@solana/rpc-types"),
  ("solanaSigners", "@solana/signers"),
  ("solanaTransactionConfirmation", "@solana/transaction-confirmation"),
  ("solanaTransactionMessages", "@solana/transaction-messages"),
  ("solanaTransactions", "@solana/transactions")]

/-- a relative specifier as a file `depth` folders deeper writes it -/
def rebase (specifier : Text) (depth : Int) : Text :=
  if depth ≤ 0 ∨ !ImportTable.isRelative specifier then specifier
  else
    let up := (List.replicate depth.toNat (Text.ofString "../")).flatten
    if specifier = Text.ofString "." then up
    else
      match Text.after? "./" specifier with
      | some rest => up ++ rest
      | none => up ++ specifier

def clientSpecifier (r : Resolver) : Text := rebase r.client r.depth

/-- the module an alias stands for -/
def module (r : Resolver) (name : Text) : Text :=
  if name = reactAlias then "react"
  else if name = clientAlias then r.clientSpecifier
  else
    match packages.lookup name with
    | none => name
    | some package =>
      match r.strategy with
      | .groupedRoot => rootPackage
      | .granular => package
      | .callerRelative => r.clientSpecifier

/-- the entries of one alias under the module it stands for -/
def rekeyed (r : Resolver) (table : ImportTable) (name : Text) : List (ImportKey × ImportSymbol) :=
  table.entries.filterMap fun e => if e.1.module = name then some (⟨r.module name, e.1.used⟩, e.2) else none

/-- the table under modules instead of aliases, merged in the order of the aliases -/
def resolve (r : Resolver) (table : ImportTable) : ImportTable :=
  ImportTable.absorbAll OrderedMap.empty ((Text.sorted table.modules).flatMap (r.rekeyed table))

def atDepth (r : Resolver) (depth : Int) : Resolver := { r with depth }

end Resolver

end InterfacePages
