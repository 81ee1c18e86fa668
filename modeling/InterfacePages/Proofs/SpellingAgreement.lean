/-
Spellings of a spelling.

On ASCII names the case mappings move single letters, and a word changes only at its beginning when it is capitalised
(`capitalized_word`). The spellings with marks between the words keep the words apart, so their words, capitalised, are
those of the name (`capitalizedWords_spelling`). In Pascal case and in camel case words without a capital join the one
before, but what is strung together stays the same (`pascalCase_strung`). So title case makes the same of a name and of
its spellings with marks, Pascal case and camel case of a name and of all its spellings, and an identifier that is built
from Pascal case does not tell the name from the one that is stored for it.
-/
import InterfacePages.Name.Role
import InterfacePages.Proofs.CaseMappings
import InterfacePages.Proofs.NameWords

namespace InterfacePages

namespace Name

open Text (Ascii big little big_little big_little_big big_big big_capital big_lt little_lt little_plain upperOne_ascii
  lower_ascii map_little_plain ascii_map ascii_joinWith)

/-! ## Words -/

/-- **A capitalised word has another first letter and is the same behind it.** -/
theorem capitalized_word {c : Nat} {rest : Text} (hw : IsWord (c :: rest)) (ha : Ascii (c :: rest)) :
    capitalized (c :: rest) = big c :: rest := by
  have hrest : Ascii rest := fun d hd => ha d (List.mem_cons_of_mem _ hd)
  have hplain : rest.map little = rest := map_little_plain hw.plain
  rw [capitalized_cons, upperOne_ascii (ha c List.mem_cons_self), lower_ascii hrest, hplain]
  rfl

theorem solid_big {c : Nat} (hc : c < 128) (h : isSeparator c = false) : isSeparator (big c) = false :=
  solid_upperOne h _ (by rw [upperOne_ascii hc]; exact List.mem_singleton_self _)

/-- a capitalised word is a word that stays the same when it is capitalised, and in lower case gives it again -/
theorem capitalized_settles {w : Text} (hw : IsWord w) (ha : Ascii w) : IsWord (capitalized w) ∧
    Ascii (capitalized w) ∧ capitalized (capitalized w) = capitalized w ∧
    IsWord (Text.lower (capitalized w)) ∧ capitalized (Text.lower (capitalized w)) = capitalized w := by
  obtain ⟨c, rest, rfl⟩ := List.exists_cons_of_ne_nil hw.nonempty
  have hsolid : isSeparator (big c) = false := solid_big (ha c List.mem_cons_self) (hw.solid c List.mem_cons_self)
  have hbig : Ascii (big c :: rest) :=
    List.forall_mem_cons.2 ⟨big_lt (ha c List.mem_cons_self), fun d hd => ha d (List.mem_cons_of_mem _ hd)⟩
  have hword : IsWord (big c :: rest) := ⟨List.cons_ne_nil _ _, List.forall_mem_cons.2
    ⟨hsolid, hw.solid.mono (List.subset_cons_self c rest)⟩, hw.plain⟩
  have hplain : rest.map little = rest := map_little_plain hw.plain
  have hlower : Text.lower (big c :: rest) = little (big c) :: rest := by
    rw [lower_ascii hbig, List.map_cons, hplain]
  have hlow : Ascii (little (big c) :: rest) := by
    rw [← hlower, lower_ascii hbig]
    exact ascii_map hbig fun _ => little_lt
  have hlowWord : IsWord (little (big c) :: rest) := by
    refine ⟨List.cons_ne_nil _ _, ?_, hw.plain⟩
    rw [← hlower]
    exact solid_lower hword.solid
  rw [capitalized_word hw ha, hlower, capitalized_word hword hbig, capitalized_word hlowWord hlow, big_big,
    big_little_big]
  exact ⟨hword, hbig, rfl, hlowWord, rfl⟩

theorem ascii_words {s : Text} (hs : Ascii s) : ∀ w ∈ words s, Ascii w := forall_words hs

theorem capitalizedWords_settle {s : Text} (hs : Ascii s) : ∀ w ∈ capitalizedWords s, IsWord w ∧ Ascii w ∧
    capitalized w = w ∧ IsWord (Text.lower w) ∧ capitalized (Text.lower w) = w := by
  intro w hw
  obtain ⟨v, hv, rfl⟩ := List.mem_map.1 hw
  exact capitalized_settles (isWord_of_mem_words hv) (ascii_words hs v hv)

theorem lower_joinWith {c : Nat} (hc : c < 128) (hlow : little c = c) {ws : List Text} (h : ∀ w ∈ ws, Ascii w) :
    Text.lower (Text.joinWith [c] ws) = Text.joinWith [c] (ws.map Text.lower) := by
  rw [lower_ascii (ascii_joinWith (List.forall_mem_singleton.2 hc) h)]
  induction ws with
  | nil => rfl
  | cons w rest ih =>
    rw [List.forall_mem_cons] at h
    by_cases hr : rest = []
    · subst hr
      exact (lower_ascii h.1).symm
    · rw [List.map_cons, Text.joinWith_cons _ _ hr, Text.joinWith_cons _ _ (mt List.map_eq_nil_iff.1 hr),
        lower_ascii h.1, ← ih h.2, List.map_append, List.map_append, List.map_singleton, hlow]

/-- **Spellings with marks keep the words of a name.** -/
theorem capitalizedWords_spelling {s : Text} (hs : Ascii s) :
    ∀ g ∈ [titleCase, kebabCase, snakeCase], capitalizedWords (g s) = capitalizedWords s := by
  have hsettle := capitalizedWords_settle hs
  have hmap : ∀ f : Text → Text, (∀ w ∈ capitalizedWords s, f w = w) →
      (capitalizedWords s).map f = capitalizedWords s :=
    fun f hf => (List.map_congr_left hf).trans (List.map_id _)
  have hmarked : ∀ {c : Nat}, isSeparator c = true → c < 128 → little c = c →
      capitalizedWords (Text.lower (Text.joinWith [c] (capitalizedWords s))) = capitalizedWords s := by
    intro c hc hlt hlow
    have hwords : ∀ w ∈ (capitalizedWords s).map Text.lower, IsWord w := by
      intro w hw
      obtain ⟨v, hv, rfl⟩ := List.mem_map.1 hw
      exact (hsettle v hv).2.2.2.1
    rw [lower_joinWith hlt hlow fun w hw => (hsettle w hw).2.1, capitalizedWords_eq, words_joinWith hc hwords,
      List.map_map]
    exact hmap _ fun w hw => (hsettle w hw).2.2.2.2
  simp only [List.forall_mem_cons, List.not_mem_nil, false_imp_iff, implies_true, and_true]
  refine ⟨?_, hmarked (c := 45) (by decide) (by decide) (by decide),
    hmarked (c := 95) (by decide) (by decide) (by decide)⟩
  rw [titleCase, capitalizedWords_eq]
  change (words (Text.joinWith [32] _)).map _ = _
  rw [words_joinWith (by decide) fun w hw => (hsettle w hw).1]
  exact hmap _ fun w hw => (hsettle w hw).2.2.1

/-! ## Strung words -/

/-- a text without separators in Pascal case has another first letter and is the same behind it -/
theorem pascalCase_strung {c : Nat} {t : Text} (hsolid : Solid (c :: t)) (ha : Ascii (c :: t)) :
    pascalCase (c :: t) = big c :: t := by
  obtain ⟨first, rest, hwords, hflat, hraise⟩ := words_solid hsolid
  have hword : ∀ w ∈ words (c :: t), IsWord w ∧ Ascii w := fun w hw => ⟨isWord_of_mem_words hw, ascii_words ha w hw⟩
  rw [hwords, List.forall_mem_cons] at hword
  have hrest : rest.map capitalized = rest := by
    refine (List.map_congr_left fun w hw => ?_).trans (List.map_id rest)
    obtain ⟨d, u, rfl, hd⟩ := hraise w hw
    obtain ⟨hisWord, hascii⟩ := hword.2 _ hw
    rw [capitalized_word hisWord hascii, big_capital hd]
    rfl
  rw [pascalCase, capitalizedWords_eq, hwords, List.map_cons, hrest, capitalized_word hword.1.1 hword.1.2,
    List.flatten_cons, List.cons_append, hflat]

theorem ascii_pascalCase {s : Text} (hs : Ascii s) : Ascii (pascalCase s) := by
  intro c hc
  obtain ⟨w, hw, hcw⟩ := List.mem_flatten.1 hc
  exact (capitalizedWords_settle hs w hw).2.1 c hcw

/-- the first letter of an ASCII name in camel case is the small one of that in Pascal case -/
theorem camelCase_ascii {s : Text} (hs : Ascii s) {c : Nat} {t : Text} (h : pascalCase s = c :: t) :
    camelCase s = little c :: t := by
  have hc : c < 128 := ascii_pascalCase hs c (by rw [h]; exact List.mem_cons_self)
  rw [camelCase_cons h, lower_ascii (List.forall_mem_singleton.2 hc)]
  rfl

theorem ascii_camelCase {s : Text} (hs : Ascii s) : Ascii (camelCase s) := by
  have hascii := ascii_pascalCase hs
  cases h : pascalCase s with
  | nil => rw [camelCase_nil h]; exact fun c hc => absurd hc List.not_mem_nil
  | cons c t =>
    rw [h, Ascii, List.forall_mem_cons] at hascii
    rw [camelCase_ascii hs h]
    exact List.forall_mem_cons.2 ⟨little_lt hascii.1, hascii.2⟩

/-- **Pascal case makes the same of a name and of its spellings without marks.** -/
theorem pascalCase_unmarked {s : Text} (hs : Ascii s) :
    pascalCase (pascalCase s) = pascalCase s ∧ pascalCase (camelCase s) = pascalCase s := by
  cases hp : pascalCase s with
  | nil =>
    rw [camelCase_nil hp]
    exact ⟨rfl, rfl⟩
  | cons c t =>
    have hsolid := solid_pascalCase s
    have hascii := ascii_pascalCase hs
    have hsolid' := solid_camelCase s
    have hascii' := ascii_camelCase hs
    have hc : Text.isSmall c = false := raised_pascalCase s c (by rw [hp]; rfl)
    rw [hp] at hsolid hascii
    rw [camelCase_ascii hs hp] at hsolid' hascii' ⊢
    rw [pascalCase_strung hsolid hascii, pascalCase_strung hsolid' hascii', big_little hc, big, hc]
    exact ⟨rfl, rfl⟩

/-! ## Identifiers -/

/-- all roles but one build their identifiers from the name in Pascal case -/
theorem standard_congr {role : Role} (hrole : role ≠ .programAddressConstant) {name name' : Text}
    (h : pascalCase name = pascalCase name') : role.standard name = role.standard name' := by
  unfold Role.standard
  rw [h]
  cases role <;> first | rfl | exact absurd rfl hrole

/-- **The spellings of an ASCII name agree.** A spelling with marks between the words has the title of the name, every
spelling has its Pascal case and its camel case, and whatever a role builds from Pascal case it builds alike from the
name and from its camel case. -/
theorem spellings_agree {s : Text} (hs : Ascii s) :
    (∀ g ∈ [titleCase, kebabCase, snakeCase], titleCase (g s) = titleCase s) ∧
    (∀ g ∈ [titleCase, pascalCase, camelCase, kebabCase, snakeCase],
      pascalCase (g s) = pascalCase s ∧ camelCase (g s) = camelCase s) ∧
    ∀ (naming : Naming) (role : Role), role ≠ .programAddressConstant → naming.overrides.lookup role = none →
      naming.identifier role (camelCase s) = naming.identifier role s := by
  have hmarked := capitalizedWords_spelling hs
  obtain ⟨hpascal, hcamel⟩ := pascalCase_unmarked hs
  have hspelling : ∀ g ∈ [titleCase, pascalCase, camelCase, kebabCase, snakeCase], pascalCase (g s) = pascalCase s := by
    simp only [List.forall_mem_cons, List.not_mem_nil, false_imp_iff, implies_true, and_true] at hmarked ⊢
    obtain ⟨htitle, hkebab, hsnake⟩ := hmarked
    exact ⟨congrArg List.flatten htitle, hpascal, hcamel, congrArg List.flatten hkebab, congrArg List.flatten hsnake⟩
  refine ⟨fun g hg => congrArg (Text.joinWith _) (hmarked g hg), fun g hg => ⟨hspelling g hg, ?_⟩, ?_⟩
  · rw [camelCase, hspelling g hg]
    rfl
  · intro naming role hrole hoverride
    rw [Naming.identifier, Naming.identifier, hoverride, standard_congr hrole hcamel]

/-- words that begin with digits or marks join the one before -/
theorem fused_words_agree : Ascii "mint 2 accounts.v1-3" ∧
    pascalCase "mint 2 accounts.v1-3" = "Mint2AccountsV13" ∧
    camelCase (kebabCase "mint 2 accounts.v1-3") = "mint2AccountsV13" ∧
    titleCase (snakeCase "mint 2 accounts.v1-3") = "Mint 2 Accounts V1 3" ∧
    titleCase (camelCase "mint 2 accounts.v1-3") = "Mint2 Accounts V13" ∧
    (⟨Role.all, []⟩ : Naming).identifier .accountFetchFunction "mint2AccountsV13" =
      (⟨Role.all, []⟩ : Naming).identifier .accountFetchFunction "mint 2 accounts.v1-3" := by
  have hascii : Ascii "mint 2 accounts.v1-3" := by decide
  have hcamel : camelCase "mint 2 accounts.v1-3" = "mint2AccountsV13" := by decide +kernel
  obtain ⟨htitle, hspell, hrole⟩ := spellings_agree hascii
  refine ⟨hascii, by decide +kernel, ?_, ?_, by decide +kernel, ?_⟩
  · exact (hspell kebabCase (by simp)).2.trans hcamel
  · exact (htitle snakeCase (by simp)).trans (by decide +kernel)
  · rw [← hcamel]
    exact hrole _ _ (by decide) rfl

/-- an identifier that is built from snake case keeps apart what the stored name joins -/
example :
    Role.standard .programAddressConstant (camelCase "mint 2") ≠ Role.standard .programAddressConstant "mint 2" := by
  decide +kernel

end Name

end InterfacePages
