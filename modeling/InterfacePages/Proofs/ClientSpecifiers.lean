/-
Where the client's specifier leads.

The specifier of the client is written for the folder of hooks. A module that lies deeper goes up as many folders first
and then the same way (`partsOf_rebase`), so from the folder of any module its specifier leads to one and the same place
(`client_in_one_place`), whatever the names in the tree are and however many folders they make.
-/
import Mathlib.Data.List.Induction
import InterfacePages.Proofs.HookImports
import InterfacePages.Proofs.PagePaths
import InterfacePages.Proofs.Texts

namespace InterfacePages

open Files.Path (partsOf)

/-! ## Locations -/

/-- a place among folders: how many folders above the start a way to it climbs, and the folders it leads on through -/
structure Location where
  climbs : Nat
  folders : List Text
  deriving DecidableEq, Repr

namespace Location

/-- one part of a specifier further: two points lead back to the folder around, and above the start if there is none -/
def step (place : Location) (part : Text) : Location :=
  if part = ".." then
    if place.folders = [] then { place with climbs := place.climbs + 1 }
    else { place with folders := place.folders.dropLast }
  else { place with folders := place.folders ++ [part] }

/-- where a specifier leads from a folder -/
def of (folder : List Text) (specifier : Text) : Location := (partsOf specifier).foldl step ⟨0, folder⟩

theorem step_back (climbs : Nat) (folders : List Text) (last : Text) :
    step ⟨climbs, folders ++ [last]⟩ ".." = ⟨climbs, folders⟩ := by
  rw [step, if_pos rfl, if_neg (List.append_ne_nil_of_right_ne_nil _ (List.cons_ne_nil _ _)), List.dropLast_concat]

/-- going back through as many folders as were entered -/
theorem steps_back (climbs : Nat) (folders deeper : List Text) :
    (List.replicate deeper.length (Text.ofString "..")).foldl step ⟨climbs, folders ++ deeper⟩ = ⟨climbs, folders⟩ := by
  induction deeper using List.reverseRecOn with
  | nil =>
    rw [List.append_nil]
    rfl
  | append_singleton deeper last ih =>
    rw [List.length_append, List.length_singleton, List.replicate_succ, List.foldl_cons, ← List.append_assoc, step_back,
      ih]

end Location

/-! ## Rebasing -/

namespace Resolver

def up (depth : Nat) : Text := (List.replicate depth (Text.ofString "../")).flatten

theorem up_succ (depth : Nat) : up (depth + 1) = "../" ++ up depth := rfl

theorem up_add (a b : Nat) : up (a + b) = up a ++ up b := by
  unfold up
  rw [List.replicate_add, List.flatten_append]

theorem partsOf_up (depth : Nat) (t : Text) :
    partsOf (up depth ++ t) = List.replicate depth (Text.ofString "..") ++ partsOf t := by
  induction depth with
  | zero => rfl
  | succ depth ih =>
    rw [up_succ, List.replicate_succ, List.cons_append, ← ih]
    exact Files.partsOf_append ".." (up depth ++ t)

/-- a relative specifier is rebased by putting the way up before what it says beyond its own folder -/
theorem rebase_relative {specifier : Text} (h : ImportTable.isRelative specifier = true) :
    ∃ rest, partsOf rest = partsOf specifier ∧ ∀ depth : Nat, 0 < depth → rebase specifier depth = up depth ++ rest := by
  have hrebase : ∀ depth : Nat, 0 < depth → rebase specifier depth =
      if specifier = Text.ofString "." then up depth
      else up depth ++ (Text.after? "./" specifier).getD specifier := fun depth hd => by
    have hcond : ¬((depth : Int) ≤ 0 ∨ !ImportTable.isRelative specifier) := by
      rw [h]
      simp only [Bool.not_true, Bool.false_eq_true, or_false]
      omega
    rw [rebase, if_neg hcond, Int.toNat_natCast]
    cases Text.after? "./" specifier with
    | none => rfl
    | some rest => rfl
  by_cases hpoint : specifier = Text.ofString "."
  · refine ⟨[], by rw [hpoint]; rfl, fun depth hd => ?_⟩
    rw [hrebase depth hd, if_pos hpoint, List.append_nil]
  · refine ⟨(Text.after? "./" specifier).getD specifier, ?_, fun depth hd => by rw [hrebase depth hd, if_neg hpoint]⟩
    cases hafter : Text.after? "./" specifier with
    | none => rfl
    | some rest =>
      rw [Option.getD_some, Text.eq_of_after? hafter]
      exact (Files.partsOf_append "." rest).symm

theorem rebase_zero (specifier : Text) : rebase specifier 0 = specifier := if_pos (.inl (Int.le_refl 0))

theorem rebase_package {specifier : Text} (h : ImportTable.isRelative specifier = false) (depth : Int) :
    rebase specifier depth = specifier := if_pos (.inr (by rw [h]; rfl))

theorem rebase_up {a : Nat} (ha : 0 < a) (rest : Text) (b : Nat) : rebase (up a ++ rest) b = up b ++ (up a ++ rest) := by
  obtain ⟨a, rfl⟩ := Nat.exists_eq_add_one_of_ne_zero (Nat.ne_of_gt ha)
  by_cases hb : b = 0
  · subst hb
    exact rebase_zero _
  · have hcond : ¬((b : Int) ≤ 0 ∨ !ImportTable.isRelative (up (a + 1) ++ rest)) := by
      have hrel : ImportTable.isRelative (up (a + 1) ++ rest) = true := rfl
      rw [hrel]
      simp only [Bool.not_true, Bool.false_eq_true, or_false]
      omega
    rw [rebase, if_neg hcond, Int.toNat_natCast]
    rfl

/-- rebasing in two steps -/
theorem rebase_rebase (specifier : Text) (a b : Nat) :
    rebase (rebase specifier a) b = rebase specifier ((a : Int) + b) := by
  by_cases ha : a = 0
  · subst ha
    rw [Int.natCast_zero, rebase_zero, Int.zero_add]
  · cases h : ImportTable.isRelative specifier with
    | false => rw [rebase_package h, rebase_package h, rebase_package h]
    | true =>
      obtain ⟨rest, -, hrest⟩ := rebase_relative h
      have hpos : 0 < a := Nat.pos_of_ne_zero ha
      rw [hrest a hpos, rebase_up hpos, ← Int.natCast_add, hrest (a + b) (by omega), Nat.add_comm, up_add,
        List.append_assoc]

theorem partsOf_rebase {specifier : Text} (h : ImportTable.isRelative specifier = true) (depth : Nat) :
    partsOf (rebase specifier depth) = List.replicate depth (Text.ofString "..") ++ partsOf specifier := by
  by_cases hd : depth = 0
  · subst hd
    rw [Int.natCast_zero, rebase_zero, List.replicate_zero, List.nil_append]
  · obtain ⟨rest, hparts, hrest⟩ := rebase_relative h
    rw [hrest depth (Nat.pos_of_ne_zero hd), partsOf_up, hparts]

/-- a rebased specifier leads from deeper folders to where the specifier leads from the outer ones -/
theorem location_rebase {specifier : Text} (h : ImportTable.isRelative specifier = true) (folders deeper : List Text) :
    Location.of (folders ++ deeper) (rebase specifier deeper.length) = Location.of folders specifier := by
  rw [Location.of, partsOf_rebase h, List.foldl_append, Location.steps_back, Location.of]

end Resolver

namespace Hooks

/-- the specifier by which a module asks for the client: a package's name as it is, and one that leads, from the folder
of the module, to where the client's own specifier leads from the folder of hooks -/
structure ClientFrom (client path specifier : Text) : Prop where
  package : ImportTable.isRelative client = false → specifier = client
  place : ImportTable.isRelative client = true →
    Location.of (partsOf path).dropLast specifier = Location.of [hooksFolder] client

theorem Placed.clientFrom {path : Text} (h : Placed path) (client : Text) :
    ∃ d : Nat, Hooks.depth path = .ok d ∧ ClientFrom client path (Resolver.rebase client d) := by
  obtain ⟨rest, hparts, hne, hdepth⟩ := h.parts
  have hlast : (partsOf path).dropLast = [hooksFolder] ++ rest.dropLast := by
    rw [hparts, List.dropLast_cons_of_ne_nil hne]
    rfl
  refine ⟨rest.dropLast.length, ?_, fun hpackage => Resolver.rebase_package hpackage _, fun hrelative => ?_⟩
  · have := List.length_pos_iff.2 hne
    rw [hdepth, List.length_dropLast, Int.natCast_sub this]
    rfl
  · rw [hlast, Resolver.location_rebase hrelative]

/-- **From every module the client lies in one place.** On every page, what the drafts of its path ask of the client is
imported by one specifier, which leads from the folder of the page to where the client's own specifier leads from the
folder of hooks, or is a package's name and stays as it is. Rebasing in two steps is rebasing by the sum. -/
theorem client_in_one_place (options : Options) (root : Node) :
    (∀ m, pages options root = .ok m → ∃ naming strategy links ds, Naming.make Role.all options.transformers = .ok naming ∧
      Strategy.ofLabel options.strategy = .ok strategy ∧
      (LinkTable.recordTree root).perform OrderedMap.empty = (.ok (), links) ∧
      drafts naming links (root.height + 1) [] root = .ok ds ∧
      ∀ path page, m.get? path = some page → ∃ (d : Nat) (specifier : Text), depth path = .ok d ∧
        (⟨strategy, options.client, d⟩ : Resolver).module Resolver.clientAlias = specifier ∧
        KeepsImports ⟨strategy, options.client, d⟩ ds path page ∧
        (∀ body used, (path, body) ∈ ds → ⟨Resolver.clientAlias, used⟩ ∈ body.imports.keys →
          ⟨specifier, used⟩ ∈ page.imports.keys) ∧
        ClientFrom options.client path specifier) ∧
    ∀ (specifier : Text) (a b : Nat),
      Resolver.rebase (Resolver.rebase specifier a) b = Resolver.rebase specifier ((a : Int) + b) := by
  refine ⟨fun m h => ?_, Resolver.rebase_rebase⟩
  obtain ⟨naming, strategy, links, ds, merged, hnaming, hstrategy, hlinks, hds, hm, hmodules⟩ := pages_eq_ok h
  obtain ⟨hkeys, hvalues⟩ := OrderedMap.tryMap_eq_ok hmodules
  refine ⟨naming, strategy, links, ds, hnaming, hstrategy, hlinks, hds, fun path page hp => ?_⟩
  obtain ⟨body, hb, hpage⟩ := hvalues path page hp
  obtain ⟨d, hd, hpage⟩ := except_bind_ok.1 hpage
  cases hpage
  have hplaced : Placed path := (drafts_placed _ _ _ _ _ ds hds).pages hm path (OrderedMap.mem_keys.2 ⟨body, hb⟩)
  obtain ⟨d', hd', hclient⟩ := hplaced.clientFrom options.client
  obtain rfl : (d' : Int) = d := Except.ok.inj (hd'.symm.trans hd)
  have hkeeps := keepsImports_module (r := ⟨strategy, options.client, d'⟩) hm hb
  refine ⟨d', _, hd, rfl, hkeeps, fun needed used hneeded hused => ?_, hclient⟩
  obtain ⟨wanted, hwanted⟩ := OrderedMap.mem_keys.1 hused
  obtain ⟨symbol, hsymbol⟩ := hkeeps.kept _ wanted ⟨needed, _, hneeded, hwanted, rfl⟩
  exact OrderedMap.mem_keys.2 ⟨symbol, hsymbol⟩

/-- a tree with an account whose name makes a folder, written with two slashes -/
def slashedTree : Node :=
  Node.rootOf (.known .program (Node.fillSlots Kind.program.slots [
    (.name, .text "p"),
    (.accounts, .tuple [.node (.known .account (Node.fillSlots Kind.account.slots [(.name, .text "a//b")]))])]))

theorem slashed_account_finds_client : (∃ m ds page, pages ⟨"./client", "granular", []⟩ slashedTree = .ok m ∧
      m.get? "hooks/a//b.ts" = some page ∧ KeepsImports ⟨.granular, "./client", 1⟩ ds "hooks/a//b.ts" page ∧
      ClientFrom "./client" "hooks/a//b.ts" "../client" ∧
      Location.of ["hooks", "a"] "../client" = ⟨0, ["hooks", "client"]⟩) ∧
    Resolver.rebase (Resolver.rebase "./client" 1) 2 = Resolver.rebase "./client" 3 := by
  obtain ⟨hpages, hrebase⟩ := client_in_one_place ⟨"./client", "granular", []⟩ slashedTree
  refine ⟨?_, hrebase "./client" 1 2⟩
  obtain ⟨m, hm⟩ := exists_of_isOk (x := pages ⟨"./client", "granular", []⟩ slashedTree) (by decide +kernel)
  have hpage :
      ((pages ⟨"./client", "granular", []⟩ slashedTree).toOption.bind (·.get? "hooks/a//b.ts")).isSome = true := by
    decide +kernel
  rw [hm] at hpage
  obtain ⟨page, hpage⟩ := Option.isSome_iff_exists.1 hpage
  obtain ⟨naming, strategy, links, ds, -, hstrategy, -, -, hclient⟩ := hpages m hm
  obtain ⟨d, specifier, hd, hspecifier, hkeeps, -, hfrom⟩ := hclient "hooks/a//b.ts" page hpage
  obtain rfl : Strategy.granular = strategy := Except.ok.inj hstrategy
  obtain rfl : d = 1 := Int.ofNat.inj (Except.ok.inj hd).symm
  obtain rfl : Text.ofString "../client" = specifier := hspecifier
  exact ⟨m, ds, page, hm, hpage, hkeeps, hfrom, by decide⟩

end Hooks

end InterfacePages
