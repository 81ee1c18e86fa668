/-
Which names a module of hooks binds, and which of them more than once.

Two things bind names in a module: its imports and the hooks it declares. `names_bound` tells exactly when one name is
bound twice. Hooks have the same name if and only if they belong to nodes of one kind with one name in Pascal case: the
modules they share keep all others apart, because names of hooks of different kinds differ in length more than names on
one path can (`subject_of_hook`). A name comes from two modules if and only if it is the data type of an account and a
type that a hook needs from elsewhere. And a hook has the name of an import if and only if it is that of an account or
instruction called after a function of the view library that the module uses.
-/
import InterfacePages.Proofs.HookBodies
import InterfacePages.Proofs.NameLetters

namespace InterfacePages

namespace Hooks

open Name (Unspaced Raised)
open PageMap (Draft contentsAt)

namespace Body

/-! ## Paths -/

/-- what the path of a module has behind the folder of all hooks -/
def stem : Body → Text
  | account name _ => Name.camelCase name
  | program name _ => Name.camelCase name
  | address name _ => "pdas/" ++ Name.camelCase name
  | instruction name => "instructions/" ++ Name.camelCase name

theorem path_eq (b : Body) : b.path = "hooks/" ++ b.stem ++ ".ts" := by
  cases b with
  | account name derived => rfl
  | program name explains => rfl
  | address name given =>
    change addressFolder ++ "/" ++ Name.camelCase name ++ ".ts" = _
    rw [stem, ← List.append_assoc]
    rfl
  | instruction name =>
    change instructionFolder ++ "/" ++ Name.camelCase name ++ ".ts" = _
    rw [stem, ← List.append_assoc]
    rfl

theorem stem_eq_of_path {b b' : Body} (h : b.path = b'.path) : b.stem = b'.stem := by
  rw [path_eq, path_eq] at h
  exact List.append_cancel_left (List.append_cancel_right h)

/-! ## Names of hooks -/

/-- what names of hooks have before and behind the name of a node -/
def hookEnds : Kind → List (Text × Text)
  | .account => [([], []), ([], "FromSeeds"), ([], "s")]
  | .program => [("Program", [])]
  | .pda => [([], "Address")]
  | _ => [([], [])]

theorem mem_hooks {b : Body} {h : Text} (hh : h ∈ b.hooks) :
    ∃ ends ∈ hookEnds b.kind, h = "use" ++ (ends.1 ++ Name.pascalCase b.name ++ ends.2) := by
  cases b with
  | account name derived =>
    have hseeds : h ∈ (if derived.isSome then [Role.accountFromSeedsHook.standard name] else []) →
        h = Role.accountFromSeedsHook.standard name := fun hh => by
      split at hh
      · exact List.mem_singleton.1 hh
      · exact absurd hh List.not_mem_nil
    rcases List.mem_append.1 hh with hh | hh
    · rcases List.mem_append.1 hh with hh | hh
      · refine ⟨([], []), List.mem_cons_self, ?_⟩
        rw [List.mem_singleton.1 hh, List.append_nil]
        rfl
      · refine ⟨([], "FromSeeds"), List.mem_cons_of_mem _ List.mem_cons_self, ?_⟩
        rw [hseeds hh]
        exact List.append_assoc _ _ _
    · refine ⟨([], "s"), List.mem_cons_of_mem _ (List.mem_cons_of_mem _ List.mem_cons_self), ?_⟩
      rw [List.mem_singleton.1 hh]
      exact List.append_assoc _ _ _
  | program name explains =>
    refine ⟨("Program", []), List.mem_singleton_self _, ?_⟩
    rw [List.mem_singleton.1 hh, List.append_nil]
    rfl
  | address name given =>
    refine ⟨([], "Address"), List.mem_singleton_self _, ?_⟩
    rw [List.mem_singleton.1 hh]
    exact List.append_assoc _ _ _
  | instruction name =>
    refine ⟨([], []), List.mem_singleton_self _, ?_⟩
    rw [List.mem_singleton.1 hh, List.append_nil]
    rfl

/-- the hook that every body has, whose name the subject decides -/
def mainHook (subject : Kind × Text) : Text :=
  match subject.1 with
  | .program => "useProgram" ++ subject.2
  | .pda => "use" ++ subject.2 ++ "Address"
  | _ => "use" ++ subject.2

theorem mainHook_mem (b : Body) : mainHook b.subject ∈ b.hooks := by
  cases b <;> exact List.mem_cons_self

theorem nodup_hooks (b : Body) : b.hooks.Nodup := by
  cases b with
  | account name derived =>
    have hends : (account name derived).hooks = (if derived.isSome then [[], Text.ofString "FromSeeds", "s"]
        else [[], Text.ofString "s"]).map ("use" ++ Name.pascalCase name ++ ·) := by
      cases derived <;> simp [hooks, Role.standard]
    rw [hends]
    refine List.Nodup.map (List.append_right_injective _) ?_
    split <;> decide
  | _ => exact List.nodup_singleton _

/-! ## Hooks on one path -/

theorem append_of_le {α : Type} {xs ys xs' ys' : List α} (h : xs ++ ys = xs' ++ ys') (hle : ys.length ≤ ys'.length) :
    ∃ middle, xs = xs' ++ middle ∧ middle.length + ys.length = ys'.length := by
  rcases List.append_eq_append_iff.1 h with ⟨middle, hxs, hys⟩ | ⟨middle, hxs, hys⟩
  · have hnil : middle = [] := by
      rw [← List.length_eq_zero_iff]
      have hlength := congrArg List.length hys
      rw [List.length_append] at hlength
      omega
    subst hnil
    exact ⟨[], by rw [hxs]; simp, by rw [hys]; simp⟩
  · exact ⟨middle, hxs, by rw [hys, List.length_append]⟩

/-- of two names that agree up to what is behind them, the one with less behind it is longer in camel case too -/
theorem length_camelCase_le {name name' tail tail' : Text}
    (h : Name.pascalCase name ++ tail = Name.pascalCase name' ++ tail') (hle : tail.length ≤ tail'.length) :
    (Name.camelCase name').length + tail'.length ≤ (Name.camelCase name).length + tail.length := by
  obtain ⟨middle, hname, hlength⟩ := append_of_le h hle
  have hlonger := Name.length_camelCase_append hname
  omega

/-- names of the same length in camel case do not agree up to what is behind them, unless they agree -/
theorem pascalCase_eq {name name' tail tail' : Text}
    (h : Name.pascalCase name ++ tail = Name.pascalCase name' ++ tail')
    (hlength : (Name.camelCase name).length = (Name.camelCase name').length) :
    Name.pascalCase name = Name.pascalCase name' := by
  have htails : tail.length = tail'.length := by
    have hle := length_camelCase_le h
    have hge := length_camelCase_le h.symm
    omega
  exact List.append_inj_left' h htails

/-- how many letters paths have before the name of a node, by its kind -/
def lead : Kind → Nat
  | .pda => 5
  | .instruction => 13
  | _ => 0

theorem stem_length (b : Body) : b.stem.length = lead b.kind + (Name.camelCase b.name).length := by
  cases b with
  | account name derived => exact (Nat.zero_add _).symm
  | program name explains => exact (Nat.zero_add _).symm
  | address name given => exact List.length_append
  | instruction name => exact List.length_append

/-- how many letters names of hooks have besides `use` and the name of a node, by its kind -/
def extra (k : Kind) : List Nat := (hookEnds k).map fun ends => ends.1.length + ends.2.length

theorem hook_length {b : Body} {h : Text} (hh : h ∈ b.hooks) :
    ∃ n ∈ extra b.kind, h.length = 3 + (Name.pascalCase b.name).length + n := by
  obtain ⟨ends, hends, rfl⟩ := mem_hooks hh
  refine ⟨_, List.mem_map_of_mem hends, ?_⟩
  have huse : (Text.ofString "use").length = 3 := rfl
  simp only [List.length_append, huse]
  omega

/-- lengths allow a hook of one kind to be called like a hook of another in the same module -/
def Close (k k' : Kind) : Prop :=
  ∃ n ∈ extra k, ∃ n' ∈ extra k', lead k' + n ≤ lead k + n' + 1 ∧ lead k + n' ≤ lead k' + n + 1

instance (k k' : Kind) : Decidable (Close k k') := by unfold Close; infer_instance

theorem close_of_hook {b b' : Body} (hstem : b.stem = b'.stem) {h : Text} (hh : h ∈ b.hooks) (hh' : h ∈ b'.hooks) :
    Close b.kind b'.kind := by
  obtain ⟨n, hn, hlength⟩ := hook_length hh
  obtain ⟨n', hn', hlength'⟩ := hook_length hh'
  have hpath := congrArg List.length hstem
  rw [stem_length, stem_length] at hpath
  have hspell := Name.length_camelCase b.name
  have hspell' := Name.length_camelCase b'.name
  exact ⟨n, hn, n', hn', by omega, by omega⟩

/-- lengths tell all kinds apart but accounts and addresses -/
theorem kinds_apart : ∀ k ∈ [Kind.account, .program, .pda, .instruction], ∀ k' ∈ [Kind.account, .program, .pda, .instruction],
    Close k k' → k = k' ∨ (k = .account ∧ k' = .pda) ∨ (k = .pda ∧ k' = .account) := by
  decide

theorem kind_mem (b : Body) : b.kind ∈ [Kind.account, .program, .pda, .instruction] := by
  cases b <;> simp [kind]

/-- accounts and addresses have no hook of one name in one module: what the name of the account would have behind that of
the address is not as long as the folder of addresses -/
theorem account_ne_address {b b' : Body} (hk : b.kind = .account) (hk' : b'.kind = .pda) (hstem : b.stem = b'.stem)
    {h : Text} (hh : h ∈ b.hooks) (hh' : h ∈ b'.hooks) : False := by
  obtain ⟨ends, hends, rfl⟩ := mem_hooks hh
  obtain ⟨ends', hends', heq⟩ := mem_hooks hh'
  rw [hk] at hends
  rw [hk', hookEnds, List.mem_singleton] at hends'
  replace heq := List.append_cancel_left heq
  have hfirst : ∀ ends ∈ hookEnds .account, ends.1 = [] ∧ (ends.2.length ≤ 1 ∨ ends.2.length = 9) := by decide
  obtain ⟨hlead, htail⟩ := hfirst ends hends
  rw [hlead, hends'] at heq
  change Name.pascalCase b.name ++ ends.2 = Name.pascalCase b'.name ++ "Address" at heq
  have hpath := congrArg List.length hstem
  rw [stem_length, stem_length, hk, hk'] at hpath
  have haddress : (Text.ofString "Address").length = 7 := rfl
  simp only [lead] at hpath
  rcases htail with htail | htail
  · -- the account is called like the address with some letters more, and in camel case they are as many
    have hle := length_camelCase_le heq (by omega)
    omega
  · have hlength := congrArg List.length heq
    have hspell := Name.length_camelCase b.name
    have hspell' := Name.length_camelCase b'.name
    simp only [List.length_append] at hlength
    omega

/-- **Nodes of different kinds have no hook of one name in one module.** -/
theorem kind_of_hook {b b' : Body} (hstem : b.stem = b'.stem) {h : Text} (hh : h ∈ b.hooks) (hh' : h ∈ b'.hooks) :
    b.kind = b'.kind := by
  rcases kinds_apart _ b.kind_mem _ b'.kind_mem (close_of_hook hstem hh hh') with heq | ⟨hk, hk'⟩ | ⟨hk, hk'⟩
  · exact heq
  · exact (account_ne_address hk hk' hstem hh hh').elim
  · exact (account_ne_address hk' hk hstem.symm hh' hh).elim

/-- **Two hooks of one name in one module belong to nodes of one kind with one name in Pascal case.** -/
theorem subject_of_hook {b b' : Body} (hpath : b.path = b'.path) {h : Text} (hh : h ∈ b.hooks) (hh' : h ∈ b'.hooks) :
    b.subject = b'.subject := by
  have hstem := stem_eq_of_path hpath
  have hkind := kind_of_hook hstem hh hh'
  have hlength := congrArg List.length hstem
  rw [stem_length, stem_length, hkind, Nat.add_left_cancel_iff] at hlength
  obtain ⟨ends, hends, rfl⟩ := mem_hooks hh
  obtain ⟨ends', hends', heq⟩ := mem_hooks hh'
  rw [hkind] at hends
  have hleads : ∀ k ∈ [Kind.account, .program, .pda, .instruction], ∀ ends ∈ hookEnds k, ∀ ends' ∈ hookEnds k,
      ends.1 = ends'.1 := by decide
  replace heq := List.append_cancel_left heq
  rw [hleads _ b'.kind_mem _ hends _ hends', List.append_assoc, List.append_assoc] at heq
  rw [subject, subject, hkind, pascalCase_eq (List.append_cancel_left heq) hlength]

/-! ## Names of symbols -/

/-- the functions of the view library that hooks use -/
def allViews : List Text := ["useCallback", "useEffect", "useMemo", "useState"]

/-- the modules of capabilities that hooks use -/
def allCapabilities : Needs := [addressType, connectionTypes, subscriptionTypes] ++ sendingNeeds

/-- the keys of import tables that do not depend on names -/
def fixedKeys : List ImportKey := keysOf (react allViews) ++ neededKeys allCapabilities

/-- what symbols of a client have before and behind a spelled name, but for the types of data; of a type that is left
without a name there is only the mark -/
def clientEnds : List (Text × Text) := [
  ("get", "Decoder"), ("find", "Pda"), ([], "Seeds"), ([], "_PROGRAM_ADDRESS"), ("is", "Error"), ("get", "ErrorMessage"),
  ([], "Error"), ("get", "Instruction"), ([], "Input"), ("type", [])]

/-- a name is neither that of a hook nor one of those that do not depend on names -/
structure Foreign (used : Text) : Prop where
  hook : ¬ Text.ofString "use" <+: used
  fixed : ∀ k ∈ fixedKeys, k.used ≠ used

theorem fixedKeys_facts :
    (∀ k ∈ fixedKeys, ∀ k' ∈ fixedKeys, k.used = k'.used → k.module = k'.module) ∧
    (∀ k ∈ fixedKeys, k.module ≠ Resolver.clientAlias ∧ k.used ≠ []) ∧
    (∀ k ∈ fixedKeys, ∀ ends ∈ clientEnds, ¬ (ends.1 <+: k.used ∧ ends.2 <:+ k.used)) ∧
    (∀ k ∈ neededKeys allCapabilities, ¬ Text.ofString "use" <+: k.used) ∧
    ∀ t ∈ allViews, Import.usedIn t = t := by
  decide +kernel

theorem clientEnds_facts : ∀ ends ∈ clientEnds, Unspaced ends.1 ∧ Unspaced ends.2 ∧ Raised ends.2 ∧
    ends.1.head? ≠ some 117 := by
  decide

theorem not_use_of_head {t : Text} (h : t.head? ≠ some 117) : ¬ Text.ofString "use" <+: t := by
  rintro ⟨rest, rfl⟩
  exact h rfl

theorem foreign_of_ends {e : Text × Text} (he : e ∈ clientEnds) {t : Text} (ht : Raised t) :
    Foreign (e.1 ++ t ++ e.2) := by
  obtain ⟨-, -, hraised, hhead⟩ := clientEnds_facts e he
  refine ⟨not_use_of_head ?_, fun k hk hused => ?_⟩
  · by_cases hnil : e.1 = []
    · rw [hnil, List.nil_append]
      exact (ht.append hraised).head_ne rfl
    · rwa [List.append_assoc, List.head?_append_of_ne_nil _ hnil]
  · refine fixedKeys_facts.2.2.1 k hk e he ?_
    rw [hused]
    exact ⟨(List.prefix_append _ _).trans (List.prefix_append _ _), List.suffix_append _ _⟩

theorem foreign_symbol {e : Text × Text} (he : e ∈ clientEnds) {t : Text} (hspaces : Unspaced t)
    (ht : Raised t) : Foreign (Import.usedIn (e.1 ++ t ++ e.2)) := by
  obtain ⟨hfirst, hlast, -⟩ := clientEnds_facts e he
  rw [Import.usedIn_name ((hfirst.append hspaces).append hlast)]
  exact foreign_of_ends he ht

theorem foreign_type {e : Text × Text} (he : e ∈ clientEnds) (hne : e.2 ≠ []) {t : Text}
    (hspaces : Unspaced t) (ht : Raised t) : Foreign (Import.usedIn ("type " ++ (e.1 ++ t ++ e.2))) := by
  obtain ⟨hfirst, hlast, -⟩ := clientEnds_facts e he
  rw [Import.usedIn_type ((hfirst.append hspaces).append hlast),
    List.isEmpty_eq_false_iff.2 (List.append_ne_nil_of_right_ne_nil _ hne)]
  exact foreign_of_ends he ht

theorem foreign_addressSymbols {name : Text} {given : Bool} {t : Text} (ht : t ∈ addressSymbols name given) :
    Foreign (Import.usedIn t) := by
  have hspaces := Name.unspaced_pascalCase name
  have hraised := Name.raised_pascalCase name
  rcases List.mem_append.1 ht with ht | ht
  · rw [List.mem_singleton.1 ht]
    exact foreign_symbol (e := ("find", "Pda")) (by decide) hspaces hraised
  · split at ht
    · rw [List.mem_singleton.1 ht]
      exact foreign_type (e := ([], "Seeds")) (by decide) (by decide) hspaces hraised
    · exact absurd ht List.not_mem_nil

/-- **What a hook needs of the client is the type of an account's data or foreign.** -/
theorem symbol_cases {b : Body} {t : Text} (ht : t ∈ b.symbols) :
    (b.kind = .account ∧ Import.usedIn t = Name.pascalCase b.name) ∨ Foreign (Import.usedIn t) := by
  have hspaces := Name.unspaced_pascalCase b.name
  have hraised := Name.raised_pascalCase b.name
  cases b with
  | account name derived =>
    rcases List.mem_append.1 ht with ht | ht
    · simp only [dataSymbols, List.mem_cons, List.not_mem_nil, or_false] at ht
      rcases ht with rfl | rfl
      · have hused := Import.usedIn_type (Name.unspaced_pascalCase name)
        split at hused
        · refine .inr ?_
          rw [Role.standard, hused]
          exact foreign_of_ends (e := ("type", [])) (by decide) Name.raised_nil
        · exact .inl ⟨rfl, hused⟩
      · exact .inr (foreign_symbol (e := ("get", "Decoder")) (by decide) hspaces hraised)
    · cases derived with
      | none => exact absurd ht List.not_mem_nil
      | some d => exact .inr (foreign_addressSymbols ht)
  | address name given => exact .inr (foreign_addressSymbols ht)
  | program name explains =>
    rcases List.mem_append.1 ht with ht | ht
    · rw [List.mem_singleton.1 ht]
      exact .inr (foreign_symbol (e := ([], "_PROGRAM_ADDRESS")) (by decide) (Name.unspaced_upper_snakeCase name)
        (Name.raised_upper _))
    · split at ht
      · simp only [List.mem_cons, List.not_mem_nil, or_false] at ht
        rcases ht with rfl | rfl | rfl
        · exact .inr (foreign_symbol (e := ("is", "Error")) (by decide) hspaces hraised)
        · exact .inr (foreign_symbol (e := ("get", "ErrorMessage")) (by decide) hspaces hraised)
        · exact .inr (foreign_type (e := ([], "Error")) (by decide) (by decide) hspaces hraised)
      · exact absurd ht List.not_mem_nil
  | instruction name =>
    simp only [symbols, List.mem_cons, List.not_mem_nil, or_false] at ht
    rcases ht with rfl | rfl
    · exact .inr (foreign_symbol (e := ("get", "Instruction")) (by decide) hspaces hraised)
    · exact .inr (foreign_type (e := ([], "Input")) (by decide) (by decide) hspaces hraised)

/-! ## Needs -/

theorem views_subset (b : Body) : b.views ⊆ allViews := by
  cases b with
  | account name derived => exact fun t ht => List.mem_cons_of_mem _ ht
  | program name explains =>
    have hviews : ∀ explains, (program [] explains).views ⊆ allViews := by decide
    exact hviews explains
  | address name given =>
    have hviews : (address [] true).views ⊆ allViews := by decide
    exact hviews
  | instruction name =>
    have hviews : (instruction []).views ⊆ allViews := by decide
    exact hviews

theorem capabilities_subset (b : Body) : neededKeys b.capabilities ⊆ neededKeys allCapabilities := by
  have hneeds : ∀ need ∈ b.capabilities, need ∈ allCapabilities := by
    cases b with
    | account name derived => exact fun need h => List.mem_append_left _ h
    | program name explains => exact fun need h => List.mem_append_left _ (List.mem_cons.2 (.inl (List.mem_singleton.1 h)))
    | address name given => exact fun need h => List.mem_append_left _ (List.mem_cons.2 (.inl (List.mem_singleton.1 h)))
    | instruction name => exact fun need h => List.mem_cons_of_mem _ h
  intro k hk
  obtain ⟨need, hneed, hk⟩ := List.mem_flatMap.1 hk
  exact List.mem_flatMap.2 ⟨need, hneeds need hneed, hk⟩

/-- what a body needs: functions of the view library, modules of capabilities, and symbols of the client -/
theorem mem_needs {b : Body} {k : ImportKey} : k ∈ neededKeys b.needs ↔
    (k.module = Resolver.reactAlias ∧ k.used ∈ b.views) ∨ k ∈ neededKeys b.capabilities ∨
      (k.module = Resolver.clientAlias ∧ ∃ t ∈ b.symbols, Import.usedIn t = k.used) := by
  have hviews : k ∈ keysOf (react b.views) ↔ k.module = Resolver.reactAlias ∧ k.used ∈ b.views := by
    refine mem_keysOf.trans (and_congr_right fun _ => ?_)
    constructor
    · rintro ⟨t, ht, hused⟩
      rw [fixedKeys_facts.2.2.2.2 t (b.views_subset ht)] at hused
      exact hused ▸ ht
    · exact fun ht => ⟨_, ht, fixedKeys_facts.2.2.2.2 _ (b.views_subset ht)⟩
  rw [needs, neededKeys_cons, neededKeys_append, List.mem_append, List.mem_append, hviews, neededKeys_cons,
    neededKeys_nil, List.append_nil, mem_keysOf]
  rfl

/-- what a body needs is fixed, or it is a symbol of the client -/
theorem fixed_or_client {b : Body} {k : ImportKey} (h : k ∈ neededKeys b.needs) :
    k ∈ fixedKeys ∨ (k.module = Resolver.clientAlias ∧ ∃ t ∈ b.symbols, Import.usedIn t = k.used) := by
  rcases mem_needs.1 h with ⟨hmodule, hview⟩ | hcapability | hclient
  · refine .inl (List.mem_append_left _ (mem_keysOf.2 ⟨hmodule, k.used, b.views_subset hview, ?_⟩))
    exact fixedKeys_facts.2.2.2.2 _ (b.views_subset hview)
  · exact .inl (List.mem_append_right _ (b.capabilities_subset hcapability))
  · exact .inr hclient

/-- a fixed key and one of the client for the same name are there if the name is the type of an account's data -/
theorem data_of_fixed {b : Body} {k : ImportKey} (hfixed : k ∈ fixedKeys) {t : Text} (ht : t ∈ b.symbols)
    (hused : Import.usedIn t = k.used) : b.kind = .account ∧ Name.pascalCase b.name = k.used := by
  rcases symbol_cases ht with ⟨hkind, hdata⟩ | hforeign
  · exact ⟨hkind, hdata.symm.trans hused⟩
  · exact absurd hused.symm (hforeign.fixed k hfixed)

theorem data_needed {b : Body} (hkind : b.kind = .account) (hne : Name.pascalCase b.name ≠ []) :
    (⟨Resolver.clientAlias, Name.pascalCase b.name⟩ : ImportKey) ∈ neededKeys b.needs := by
  refine mem_needs.2 (.inr (.inr ⟨rfl, ?_⟩))
  cases b with
  | account name derived =>
    have hused := Import.usedIn_type (Name.unspaced_pascalCase name)
    change Name.pascalCase name ≠ [] at hne
    rw [if_neg (mt List.isEmpty_iff.1 hne)] at hused
    exact ⟨_, List.mem_append_left _ List.mem_cons_self, hused⟩
  | _ => cases hkind

/-- a hook is needed under its name only if it has the name of a function of the view library -/
theorem view_of_hook {b b' : Body} {h source : Text} (hh : h ∈ b.hooks)
    (hneeds : (⟨source, h⟩ : ImportKey) ∈ neededKeys b'.needs) : source = Resolver.reactAlias ∧ h ∈ b'.views := by
  have huse : Text.ofString "use" <+: h := by
    obtain ⟨ends, _, rfl⟩ := mem_hooks hh
    exact List.prefix_append _ _
  rcases mem_needs.1 hneeds with hview | hcapability | ⟨-, t, ht, hused⟩
  · exact hview
  · exact absurd huse (fixedKeys_facts.2.2.2.1 _ (b'.capabilities_subset hcapability))
  · change Import.usedIn t = h at hused
    subst hused
    rcases symbol_cases ht with ⟨-, hdata⟩ | hforeign
    · rw [hdata] at huse
      exact absurd huse (not_use_of_head ((Name.raised_pascalCase b'.name).head_ne rfl))
    · exact absurd huse hforeign.hook

/-- hooks with the name of a function of the view library are those of accounts and instructions -/
theorem main_of_view {b : Body} {h : Text} (hh : h ∈ b.hooks) (hview : h ∈ allViews) :
    b.kind ∈ [Kind.account, .instruction] ∧ h = "use" ++ Name.pascalCase b.name := by
  have hplain : ∀ t ∈ allViews, ∀ k ∈ [Kind.account, .program, .pda, .instruction], ∀ ends ∈ hookEnds k,
      Text.ofString "use" ++ ends.1 <+: t ∧ ends.2 <:+ t → k ∈ [Kind.account, .instruction] ∧ ends = ([], []) := by
    decide
  obtain ⟨ends, hends, rfl⟩ := mem_hooks hh
  obtain ⟨hkind, rfl⟩ := hplain _ hview _ b.kind_mem ends hends (by
    rw [List.append_assoc ends.1, ← List.append_assoc, ← List.append_assoc]
    exact ⟨(List.prefix_append _ _).trans (List.prefix_append _ _), List.suffix_append _ _⟩)
  exact ⟨hkind, by rw [List.append_nil]; rfl⟩

end Body

/-! ## Modules -/

def bodiesAt (path : Text) (bs : List Body) : List Body := bs.filter fun b => b.path = path

def hooksAt (path : Text) (bs : List Body) : List Text := (bodiesAt path bs).flatMap Body.hooks

/-- a module imports what the bodies in it need, and nothing else -/
def ImportsNeeds (r : Resolver) (here : List Body) (page : Fragment) : Prop :=
  ∀ k, k ∈ page.imports.keys ↔ ∃ b ∈ here, ∃ needed ∈ neededKeys b.needs, ImportTable.moduleKey r needed = k

theorem mem_bodiesAt {path : Text} {bs : List Body} {b : Body} : b ∈ bodiesAt path bs ↔ b ∈ bs ∧ b.path = path := by
  rw [bodiesAt, List.mem_filter, decide_eq_true_eq]

theorem importsNeeds {r : Resolver} {ds : List Draft} {bs : List Body} {path : Text} {page : Fragment}
    (hkeeps : KeepsImports r ds path page) (hbodies : Describes ds bs) : ImportsNeeds r (bodiesAt path bs) page := by
  intro k
  constructor
  · intro hk
    obtain ⟨symbol, hsymbol⟩ := OrderedMap.mem_keys.1 hk
    obtain ⟨wanted, ⟨f, needed, hf, hneeded, rfl⟩, -⟩ := hkeeps.source k symbol hsymbol
    have hkey : needed ∈ f.imports.keys := OrderedMap.mem_keys.2 ⟨wanted, hneeded⟩
    rcases hbodies.source _ hf with hnone | ⟨b, hb, hpath, hdrawn⟩
    · rw [hnone] at hkey
      exact absurd hkey List.not_mem_nil
    · exact ⟨b, mem_bodiesAt.2 ⟨hb, hpath⟩, needed, (hdrawn.keys needed).1 hkey, rfl⟩
  · rintro ⟨b, hb, needed, hneeded, rfl⟩
    obtain ⟨hb, hpath⟩ := mem_bodiesAt.1 hb
    obtain ⟨d, hd, hdpath, hdrawn⟩ := hbodies.kept b hb
    obtain ⟨wanted, hwanted⟩ := OrderedMap.mem_keys.1 ((hdrawn.keys needed).2 hneeded)
    obtain ⟨symbol, hsymbol⟩ := hkeeps.kept _ wanted ⟨d.2, needed, hpath ▸ hdpath ▸ hd, hwanted, rfl⟩
    exact OrderedMap.mem_keys.2 ⟨symbol, hsymbol⟩

theorem module_client (r : Resolver) : r.module Resolver.clientAlias = r.clientSpecifier := by
  rw [Resolver.module, if_neg (by decide), if_pos rfl]

section

variable {r : Resolver} {here : List Body} {page : Fragment} (himports : ImportsNeeds r here page)

include himports

/-- a name comes from two modules if and only if it is the type of an account's data and comes from elsewhere too -/
theorem imported_twice (used : Text) :
    (∃ a a', a ≠ a' ∧ (⟨a, used⟩ : ImportKey) ∈ page.imports.keys ∧ (⟨a', used⟩ : ImportKey) ∈ page.imports.keys) ↔
      (∃ b ∈ here, b.kind = .account ∧ Name.pascalCase b.name = used) ∧
        ∃ a, a ≠ r.clientSpecifier ∧ (⟨a, used⟩ : ImportKey) ∈ page.imports.keys := by
  obtain ⟨hsource, hfixed, -⟩ := Body.fixedKeys_facts
  constructor
  · rintro ⟨a, a', hne, ha, ha'⟩
    obtain ⟨b, hb, k, hk, hka⟩ := (himports _).1 ha
    obtain ⟨b', hb', k', hk', hka'⟩ := (himports _).1 ha'
    obtain ⟨rfl, hused⟩ := ImportKey.mk.inj hka
    obtain ⟨rfl, hused'⟩ := ImportKey.mk.inj hka'
    -- fixed names have one source and so has the client, so one of the two is fixed and the other is the client's
    rcases Body.fixed_or_client hk with hkey | ⟨hmodule, t, ht, hkey⟩
    · rcases Body.fixed_or_client hk' with hkey' | ⟨hmodule', t', ht', hkey'⟩
      · exact absurd (congrArg r.module (hsource k hkey k' hkey' (hused.trans hused'.symm))) hne
      · rw [hmodule', module_client] at hne
        obtain ⟨hkind, hdata⟩ := Body.data_of_fixed hkey ht' (hkey'.trans (hused'.trans hused.symm))
        exact ⟨⟨b', hb', hkind, hdata.trans hused⟩, _, hne, ha⟩
    · rcases Body.fixed_or_client hk' with hkey' | ⟨hmodule', -⟩
      · rw [hmodule, module_client] at hne
        obtain ⟨hkind, hdata⟩ := Body.data_of_fixed hkey' ht (hkey.trans (hused.trans hused'.symm))
        exact ⟨⟨b, hb, hkind, hdata.trans hused'⟩, _, hne.symm, ha'⟩
      · rw [hmodule, hmodule'] at hne
        exact absurd rfl hne
  · rintro ⟨⟨b, hb, hkind, rfl⟩, a, hne, ha⟩
    obtain ⟨b', hb', k, hk, hka⟩ := (himports _).1 ha
    obtain ⟨rfl, hused⟩ := ImportKey.mk.inj hka
    -- the name is not empty, as a fixed one, so the account asks the client for it
    rcases Body.fixed_or_client hk with hkey | ⟨hmodule, -⟩
    · have hdata := Body.data_needed hkind (hused ▸ (hfixed k hkey).2)
      refine ⟨_, _, hne, ha, (himports _).2 ⟨b, hb, _, hdata, ?_⟩⟩
      rw [ImportTable.moduleKey, module_client]
    · rw [hmodule, module_client] at hne
      exact absurd rfl hne

/-- a hook has the name of an import if and only if it is the one of an account or instruction that is called after a
function of the view library that the module uses -/
theorem imported_hook {b : Body} {h : Text} (hh : h ∈ b.hooks) :
    (∃ a, (⟨a, h⟩ : ImportKey) ∈ page.imports.keys) ↔
      b.kind ∈ [Kind.account, .instruction] ∧ h = "use" ++ Name.pascalCase b.name ∧ ∃ b' ∈ here, h ∈ b'.views := by
  constructor
  · rintro ⟨a, ha⟩
    obtain ⟨b', hb', k, hk, hka⟩ := (himports _).1 ha
    obtain ⟨rfl, rfl⟩ := ImportKey.mk.inj hka
    obtain ⟨-, hview⟩ := Body.view_of_hook hh hk
    obtain ⟨hkind, hmain⟩ := Body.main_of_view hh (b'.views_subset hview)
    exact ⟨hkind, hmain, b', hb', hview⟩
  · rintro ⟨-, -, b', hb', hview⟩
    exact ⟨_, (himports _).2 ⟨b', hb', ⟨Resolver.reactAlias, h⟩, Body.mem_needs.2 (.inl ⟨rfl, hview⟩), rfl⟩⟩

end

/-- hooks in one module have different names if and only if they belong to nodes of different kinds or with different
names in Pascal case -/
theorem nodup_hooksAt (path : Text) (bs : List Body) :
    (hooksAt path bs).Nodup ↔ ((bodiesAt path bs).map Body.subject).Nodup := by
  have hpath : ∀ b ∈ bodiesAt path bs, b.path = path := fun b hb => (mem_bodiesAt.1 hb).2
  have hsubjects : ((bodiesAt path bs).map Body.subject).Nodup ↔
      (bodiesAt path bs).Pairwise fun b b' => b.subject ≠ b'.subject := List.pairwise_map
  rw [hooksAt, List.nodup_flatMap, hsubjects]
  constructor
  · rintro ⟨-, hdisjoint⟩
    refine hdisjoint.imp fun {b b'} hdis heq => ?_
    exact hdis (heq ▸ Body.mainHook_mem b) (Body.mainHook_mem b')
  · intro hne
    refine ⟨fun b _ => b.nodup_hooks, hne.imp_of_mem fun hb hb' hne h hh hh' => hne ?_⟩
    exact Body.subject_of_hook ((hpath _ hb).trans (hpath _ hb').symm) hh hh'

/-- which names a module binds more than once, told by the bodies that stand in it -/
structure Bindings (r : Resolver) (path : Text) (bs : List Body) (page : Fragment) : Prop where
  /-- the hooks of the bodies are declared below the imports -/
  declared : ∃ lines text, page.content = moduleText lines text ∧ ∀ h ∈ hooksAt path bs, declaration h <:+: text
  /-- a name comes from two modules exactly if it is the type of an account's data and comes from elsewhere too -/
  modules : ∀ used,
    (∃ a a', a ≠ a' ∧ (⟨a, used⟩ : ImportKey) ∈ page.imports.keys ∧ (⟨a', used⟩ : ImportKey) ∈ page.imports.keys) ↔
      (∃ b ∈ bodiesAt path bs, b.kind = .account ∧ Name.pascalCase b.name = used) ∧
        ∃ a, a ≠ r.clientSpecifier ∧ (⟨a, used⟩ : ImportKey) ∈ page.imports.keys
  /-- two hooks have one name exactly if they belong to nodes of one kind with one name in Pascal case -/
  hooks : (hooksAt path bs).Nodup ↔ ((bodiesAt path bs).map Body.subject).Nodup
  /-- a hook has the name of an import exactly if it is the one of an account or instruction that is called after a
  function of the view library that the module uses -/
  apart : ∀ b ∈ bodiesAt path bs, ∀ h ∈ b.hooks, (∃ a, (⟨a, h⟩ : ImportKey) ∈ page.imports.keys) ↔
    b.kind ∈ [Kind.account, .instruction] ∧ h = "use" ++ Name.pascalCase b.name ∧
      ∃ b' ∈ bodiesAt path bs, h ∈ b'.views

/-- **Which names are bound twice.** With names spelled by their standard rules, a module binds a name twice if two
nodes of one kind in it have one name in Pascal case, if an account is called like a type that comes from elsewhere, or
if an account or instruction is called after a function of the view library; and only then. -/
theorem names_bound {options : Options} {root : Node} (hstandard : options.transformers = []) {m : PageMap}
    (h : pages options root = .ok m) :
    ∃ strategy links bs, Strategy.ofLabel options.strategy = .ok strategy ∧
      (LinkTable.recordTree root).perform OrderedMap.empty = (.ok (), links) ∧ bodiesOf links root = .ok bs ∧
      ∀ path page, m.get? path = some page →
        ∃ d, depth path = .ok d ∧ Bindings ⟨strategy, options.client, d⟩ path bs page := by
  obtain ⟨naming, strategy, links, ds, merged, hnaming, hstrategy, hlinks, hds, hm, hmodules⟩ := pages_eq_ok h
  rw [hstandard] at hnaming
  cases hnaming
  obtain ⟨bs, hbs, hdescribes⟩ := bodies_describe hds
  refine ⟨strategy, links, bs, hstrategy, hlinks, hbs, fun path page hpage => ?_⟩
  obtain ⟨body, hbody, hpage⟩ := (OrderedMap.tryMap_eq_ok hmodules).2 path page hpage
  obtain ⟨d, hd, hpage⟩ := except_bind_ok.1 hpage
  cases hpage
  have hkeeps := keepsImports_module (r := ⟨strategy, options.client, d⟩) hm hbody
  have himports := importsNeeds hkeeps hdescribes
  obtain ⟨lines, hcontent, -⟩ := hkeeps.block
  refine ⟨d, hd, ⟨lines, _, hcontent, fun hook hhook => ?_⟩, imported_twice himports, nodup_hooksAt path bs,
    fun b _ hook hhook => imported_hook himports hhook⟩
  obtain ⟨b, hb, hhook⟩ := List.mem_flatMap.1 hhook
  obtain ⟨hb, hpath⟩ := mem_bodiesAt.1 hb
  obtain ⟨draft, hdraft, hdpath, hdrawn⟩ := hdescribes.kept b hb
  refine (hdrawn.declared hook hhook).trans (Text.infix_joinWith _ (List.mem_map_of_mem ?_))
  exact List.mem_filter.2 ⟨hdraft, decide_eq_true (hdpath.trans hpath)⟩

theorem vault_names_bound : (⟨"../client", "granular", []⟩ : Options).transformers = [] ∧
    ∃ m page, pages ⟨"../client", "granular", []⟩ vaultTree = .ok m ∧ m.get? "hooks/vault.ts" = some page ∧
      Bindings ⟨.granular, "../client", 0⟩ "hooks/vault.ts" [.program "vault" false, .account "vault" none] page := by
  obtain ⟨m, hm⟩ := exists_of_isOk (x := pages ⟨"../client", "granular", []⟩ vaultTree) (by decide +kernel)
  have hpage :
      ((pages ⟨"../client", "granular", []⟩ vaultTree).toOption.bind (·.get? "hooks/vault.ts")).isSome = true := by
    decide +kernel
  rw [hm] at hpage
  obtain ⟨page, hpage⟩ := Option.isSome_iff_exists.1 hpage
  obtain ⟨strategy, links, bs, hstrategy, hlinks, hbs, hbindings⟩ := names_bound rfl hm
  obtain ⟨d, hd, hbindings⟩ := hbindings "hooks/vault.ts" page hpage
  have hvault : (bodiesOf ((LinkTable.recordTree vaultTree).perform OrderedMap.empty).2 vaultTree).toOption =
      some [.program "vault" false, .account "vault" none] := by
    decide +kernel
  rw [hlinks, hbs] at hvault
  cases hvault
  cases hstrategy
  have hdepth : depth "hooks/vault.ts" = .ok 0 := rfl
  rw [hdepth] at hd
  cases hd
  exact ⟨rfl, m, page, hm, hpage, hbindings⟩

/-- a tree of two programs with accounts that are called like each other, like a type of a connection, and like the hook
of the view library for states -/
def crowdedTree : Node :=
  .known .root (Node.fillSlots Kind.root.slots [
    (.program, .node (.known .program (Node.fillSlots Kind.program.slots [
      (.name, .text "left"),
      (.accounts, .tuple [
        .node (.known .account (Node.fillSlots Kind.account.slots [(.name, .text "vault")])),
        .node (.known .account (Node.fillSlots Kind.account.slots [(.name, .text "rpc")])),
        .node (.known .account (Node.fillSlots Kind.account.slots [(.name, .text "state")]))])]))),
    (.additionalPrograms, .tuple [.node (.known .program (Node.fillSlots Kind.program.slots [
      (.name, .text "right"),
      (.accounts, .tuple [.node (.known .account (Node.fillSlots Kind.account.slots [(.name, .text "vault")]))])]))])])

/-- **Modules may bind names twice.** In this tree a type comes from two modules, two hooks have one name, and a hook
has the name of an import. -/
theorem crowded_names_bound_twice : ∃ m bs rpc state vault,
    pages ⟨"../client", "granular", []⟩ crowdedTree = .ok m ∧
    bodiesOf ((LinkTable.recordTree crowdedTree).perform OrderedMap.empty).2 crowdedTree = .ok bs ∧
    m.get? "hooks/rpc.ts" = some rpc ∧ m.get? "hooks/state.ts" = some state ∧ m.get? "hooks/vault.ts" = some vault ∧
    (⟨"../client", "Rpc"⟩ ∈ rpc.imports.keys ∧ ⟨"@solana/rpc", "Rpc"⟩ ∈ rpc.imports.keys) ∧
    ¬ (hooksAt "hooks/vault.ts" bs).Nodup ∧
    Text.ofString "useState" ∈ hooksAt "hooks/state.ts" bs ∧ ⟨"react", "useState"⟩ ∈ state.imports.keys := by
  have hbodies : (bodiesOf ((LinkTable.recordTree crowdedTree).perform OrderedMap.empty).2 crowdedTree).toOption.any
      (fun bs => decide (¬ (hooksAt "hooks/vault.ts" bs).Nodup ∧
        Text.ofString "useState" ∈ hooksAt "hooks/state.ts" bs)) = true := by
    decide +kernel
  have hpages : (pages ⟨"../client", "granular", []⟩ crowdedTree).toOption.any (fun m =>
      (m.get? "hooks/rpc.ts").any (fun page =>
        decide (⟨"../client", "Rpc"⟩ ∈ page.imports.keys ∧ ⟨"@solana/rpc", "Rpc"⟩ ∈ page.imports.keys)) &&
      (m.get? "hooks/state.ts").any (fun page => decide (⟨"react", "useState"⟩ ∈ page.imports.keys)) &&
      (m.get? "hooks/vault.ts").isSome) = true := by
    decide +kernel
  obtain ⟨bs, hbs, hhooks⟩ := any_toOption.1 hbodies
  obtain ⟨m, hm, hpages⟩ := any_toOption.1 hpages
  simp only [Bool.and_eq_true, Option.any_eq_true, decide_eq_true_eq, Option.isSome_iff_exists] at hhooks hpages
  obtain ⟨⟨⟨rpc, hrpc, hboth⟩, state, hstate, hview⟩, vault, hvault⟩ := hpages
  exact ⟨m, bs, rpc, state, vault, hm, hbs, hrpc, hstate, hvault, hboth, hhooks.1, hhooks.2, hview⟩

end Hooks

end InterfacePages
