/-
Page maps: what is generated for each path, in the order in which the paths first appeared.

Merging keeps that order. A path with one fragment keeps it; the contents of several are joined in their order and
their imports merged.
-/
import InterfacePages.Fragment.Basic

namespace InterfacePages

abbrev PageMap := OrderedMap Text Fragment

namespace PageMap

def page (path : Text) (f : Fragment) : PageMap := OrderedMap.ofList [(path, f)]

/-- one page, or none -/
def page? (path : Text) : Option Fragment → PageMap
  | some f => page path f
  | none => OrderedMap.empty

/-- the pages of a list of paths, in which a path may be given several times and its last fragment, if any, counts -/
def ofEntries (entries : List (Text × Option Fragment)) : PageMap :=
  OrderedMap.ofList ((OrderedMap.ofList entries).entries.filterMap fun e => e.2.map fun f => (e.1, f))

def grouped (pages : List (Text × Fragment)) : OrderedMap Text (List Fragment) :=
  pages.foldl (fun groups p => groups.upsert p.1 fun group => group.getD [] ++ [p.2]) OrderedMap.empty

/-- the one fragment of a group, or all of them in one -/
def collapse (join : List Text → Text) : List Fragment → Fragment
  | [f] => f
  | fs => Fragment.merge join fs

/-- merges maps; fragments on one path become one, their contents joined -/
def mergeWith (join : List Text → Text) (maps : List PageMap) : PageMap :=
  (grouped (maps.flatMap (·.entries))).mapValues fun _ => collapse join

/-- merges maps; contents on one path are joined with blank lines -/
def merge (maps : List PageMap) : PageMap := mergeWith Text.joinParagraphs maps

/-- merges the maps that are given, and leaves out those that are not -/
def mergeGiven (maps : List (Option PageMap)) : PageMap := merge (maps.filterMap id)

def mapContent (change : Text → Text) (pages : PageMap) : PageMap :=
  pages.mapValues fun _ => Fragment.mapContent change

end PageMap

end InterfacePages
