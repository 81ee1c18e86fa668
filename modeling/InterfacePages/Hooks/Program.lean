/-
The hook of a program, which gives its address and, if the program has errors, explains them.
-/
import InterfacePages.Hooks.Piece
import InterfacePages.Node.Tree

namespace InterfacePages

namespace Hooks

def explaining (isError getMessage union : Text) : List Text := [
  "  const decodeError = useCallback((errorCode: number): string | undefined => \x7b",
  "    if (" ++ isError ++ "(errorCode)) \x7b",
  "      return " ++ getMessage ++ "(errorCode as " ++ union ++ ");",
  "    \x7d",
  "    return undefined;",
  "  \x7d, []);"]

/-- the text of a program's hook around what explains its errors -/
def programLines (hook constant : Text) (explanation : List Text) (answer : Text) : List Text := List.flatten [
  settingsType hook [programField],
  [ "export function " ++ hook ++ "(config: " ++ hook ++ "Config = \x7b\x7d) \x7b",
    "  const programAddress = useMemo(",
    "    () => config.programAddress ?? " ++ constant ++ ",",
    "    [config.programAddress],",
    "  );"],
  explanation, [""],
  answering answer]

def program (scope : Scope) (n : Node) : Except Fault Fragment := do
  let constant ← scope.identifier .programAddressConstant n
  if (← n.errors).isEmpty then
    let hook ← scope.identifier .programHook n
    withImports (programLines hook constant [] "programAddress") [react ["useMemo"], addressType, client [constant]]
  else
    let isError ← scope.identifier .programIsErrorFunction n
    let getMessage ← scope.identifier .programGetErrorMessageFunction n
    let union ← scope.identifier .programErrorUnion n
    let hook ← scope.identifier .programHook n
    withImports
      (programLines hook constant (explaining isError getMessage union) "programAddress, decodeError")
      [react ["useMemo", "useCallback"], addressType, client [constant, isError, getMessage, "type " ++ union]]

end Hooks

end InterfacePages
