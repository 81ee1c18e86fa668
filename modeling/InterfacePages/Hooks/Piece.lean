/-
The pieces of hooks.

Hooks share how they declare their settings and states, how they watch an account and how they report a failure. A
hook names the modules it needs by aliases.
-/
import InterfacePages.Fragment.Basic
import InterfacePages.Link
import InterfacePages.Name.Role

namespace InterfacePages

namespace Hooks

/-- what hooks are made with: the names of symbols and hooks, and the link table -/
structure Scope where
  naming : Naming
  links : LinkTable

def Scope.identifier (scope : Scope) (role : Role) (n : Node) : Except Fault Text := do
  scope.naming.identifier role (← n.nameText)

/-- imports of a module by its alias -/
abbrev Needs := List (Text × List Text)

def withImports (lines : List Text) (needs : Needs) : Except Fault Fragment :=
  needs.foldlM (fun f need => f.addImports need.1 need.2) (Fragment.plain (Text.joinLines lines))

def addressType : Text × List Text := ("solanaAddresses", ["type Address"])

def connectionTypes : Text × List Text := ("solanaRpc", ["type Rpc", "type SolanaRpcApi"])

/-- the types of a connection that notifies -/
def subscriptionTypes : Text × List Text :=
  ("solanaRpcSubscriptions", ["type RpcSubscriptions", "type SolanaRpcSubscriptionsApi"])

/-- symbols of the view library -/
def react (symbols : List Text) : Text × List Text := (Resolver.reactAlias, symbols)

def client (symbols : List Text) : Text × List Text := (Resolver.clientAlias, symbols)

def settingsType (hook : Text) (fields : List Text) : List Text :=
  List.flatten [["type " ++ hook ++ "Config = \x7b"], fields, ["\x7d;", ""]]

def connectionField : Text := "  rpc: Rpc<SolanaRpcApi>;"

/-- the setting of a connection that notifies -/
def subscriptionField : Text := "  rpcSubscriptions: RpcSubscriptions<SolanaRpcSubscriptionsApi>;"

def programField : Text := "  programAddress?: Address;"

def stateOf (name setter type start : Text) : Text :=
  "  const [" ++ name ++ ", " ++ setter ++ "] = useState<" ++ type ++ ">(" ++ start ++ ");"

def dataState (type : Text) : Text := stateOf "data" "setData" (type ++ " | null") "null"

def addressState : Text := stateOf "address" "setAddress" "Address | null" "null"

def statusState : Text := stateOf "status" "setStatus" "'idle' | 'loading' | 'success' | 'error'" "'idle'"

def errorState : Text := stateOf "error" "setError" "Error | null" "null"

/-- the decoder, made once -/
def decoderLine (decoder : Text) : Text := "  const decoder = useMemo(() => " ++ decoder ++ "(), []);"

/-- reports a failure unless the work was given up -/
def reporting (givenUp : Text) : List Text := [
  "      \x7d catch (e) \x7b",
  "        if (!" ++ givenUp ++ ") \x7b",
  "          setError(e instanceof Error ? e : new Error(String(e)));",
  "          setStatus('error');",
  "        \x7d",
  "      \x7d",
  "    \x7d)();"]

/-- watches the account at an address -/
def watching : List Text := List.flatten [
  [ "    setStatus('loading');",
    "    const abortController = new AbortController();",
    "    const subscription = config.rpcSubscriptions",
    "      .accountNotifications(address, \x7b encoding: 'base64' \x7d)",
    "      .subscribe(\x7b abortSignal: abortController.signal \x7d);",
    "",
    "    (async () => \x7b",
    "      try \x7b",
    "        for await (const notification of await subscription) \x7b",
    "          const rawData = notification.value.data as unknown as Uint8Array;",
    "          setData(decoder.decode(rawData));",
    "          setStatus('success');",
    "        \x7d"],
  reporting "abortController.signal.aborted",
  [ "",
    "    return () => abortController.abort();",
    "  \x7d, [address, config.rpcSubscriptions, decoder]);",
    ""]]

/-- the end of a hook, which answers with some of its names -/
def answering (names : Text) : List Text := ["  return \x7b " ++ names ++ " \x7d;", "\x7d"]

def hasGivenSeeds (pda : Node) : Except Fault Bool := do
  let rec go : List Value → Except Fault Bool
    | [] => .ok false
    | v :: rest => do if (← v.asNode).isKind .variablePdaSeed then return true else go rest
  go (← pda.items .seeds)

/-- a text, if there is something to say -/
def textIf (condition : Bool) (t : Text) : Text := if condition then t else []

end Hooks

end InterfacePages
