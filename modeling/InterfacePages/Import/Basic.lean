/-
Imported symbols and their syntax: `name`, `type Name`, `name as alias`, `type Name as Alias`.

`Import.text` writes a symbol and `Import.parse` reads one. The first word is the name exported, up to the first
space; a leading `type` is a mark only if a name follows it, so `type` alone and `type as x` import a symbol called
`type`.
-/
import InterfacePages.Fault

namespace InterfacePages

/-- a symbol to import: the name exported, whether only its type is wanted, and the name used here -/
structure Import where
  imported : Text
  isType : Bool
  used : Text
  deriving DecidableEq, Repr

namespace Import

def typeMark : Text := "type "

/-- what stands between the name exported and the name used -/
def aliasMark : Text := " as "

def text (i : Import) : Text :=
  (if i.isType then typeMark else []) ++ i.imported ++ (if i.used = i.imported then [] else aliasMark ++ i.used)

/-- reads a name, alone or followed by the name used -/
def parseNames? (isType : Bool) (t : Text) : Option Import :=
  let name := t.takeWhile (· != 32)
  if name.isEmpty then none
  else
    match t.dropWhile (· != 32) with
    | [] => some ⟨name, isType, name⟩
    | rest =>
      match Text.after? aliasMark rest with
      | some used => if used.isEmpty || used.contains 10 then none else some ⟨name, isType, used⟩
      | none => none

/-- reads a symbol without white space at its ends, with the mark of a type if that is possible -/
def parseStripped? (t : Text) : Option Import :=
  match (Text.after? typeMark t).bind (parseNames? true) with
  | some i => some i
  | none => parseNames? false t

def parse? (raw : Text) : Option Import := parseStripped? (Text.strip raw)

/-- reads a symbol, or tells which text is none -/
def parse (raw : Text) : Except Fault Import :=
  match parse? raw with
  | some i => .ok i
  | none => .error (.invalidImport raw)

end Import

end InterfacePages
