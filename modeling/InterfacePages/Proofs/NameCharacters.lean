/-
Which code points the spellings of a name are made of.

Words are pieces between separators, and no case mapping makes a separator out of anything else: the tables send every
run past all of them (`runs_avoid`). So no spelling that only strings words together has a separator in it, whatever
the name (`solid_pascalCase`, `solid_camelCase`): no point, no white space, no hyphen. Spellings that put a mark between
words have no white space in them either (`unspaced_upper_snakeCase`).
-/
import InterfacePages.Name.Case

namespace InterfacePages

namespace Name

/-! ## Separators -/

/-- the code points that separate words, as ranges given by their ends -/
def separatorRanges : List (Nat × Nat) := [
  (9, 13), (28, 32), (43, 43), (45, 46), (95, 95), (0x85, 0x85), (0xA0, 0xA0), (0x1680, 0x1680), (0x2000, 0x200A),
  (0x2028, 0x2029), (0x202F, 0x202F), (0x205F, 0x205F), (0x3000, 0x3000)]

theorem separator_in_range {c : Nat} (h : isSeparator c = true) :
    ∃ range ∈ separatorRanges, range.1 ≤ c ∧ c ≤ range.2 := by
  simp only [isSeparator, Text.isBlank, Bool.or_eq_true, Bool.and_eq_true, decide_eq_true_eq, beq_iff_eq] at h
  simp only [separatorRanges, List.mem_cons, exists_eq_or_imp, List.not_mem_nil, or_false, exists_eq_left]
  omega

/-- no code point of a text separates words -/
def Solid (t : Text) : Prop := ∀ c ∈ t, isSeparator c = false

theorem Solid.append {t u : Text} (ht : Solid t) (hu : Solid u) : Solid (t ++ u) :=
  fun c hc => (List.mem_append.1 hc).elim (ht c) (hu c)

theorem Solid.singleton {c : Nat} (h : isSeparator c = false) : Solid [c] :=
  fun _ hd => List.mem_singleton.1 hd ▸ h

theorem Solid.mono {t u : Text} (ht : Solid t) (h : u ⊆ t) : Solid u := fun c hc => ht c (h hc)

theorem Solid.flatten {ts : List Text} (h : ∀ t ∈ ts, Solid t) : Solid ts.flatten := by
  intro c hc
  obtain ⟨t, ht, hct⟩ := List.mem_flatten.1 hc
  exact h t ht c hct

/-! ## Case mappings -/

/-- a run sends no code point to a separator -/
def Avoids (run : Text.CaseRun) : Prop :=
  ∀ range ∈ separatorRanges, (run.last : Int) + run.shift < range.1 ∨ (range.2 : Int) < run.first + run.shift

instance (run : Text.CaseRun) : Decidable (Avoids run) := by unfold Avoids; infer_instance

theorem runs_avoid : (∀ run ∈ Text.upperRuns, Avoids run) ∧ ∀ run ∈ Text.lowerRuns, Avoids run := by
  decide +kernel

theorem long_mappings_solid :
    (∀ e ∈ Text.longUppers, Solid e.2) ∧ ∀ e ∈ Text.longLowers, Solid e.2 := by
  unfold Solid
  decide +kernel

theorem Avoids.image {run : Text.CaseRun} (h : Avoids run) {c : Nat} (hc : run.covers c = true) :
    isSeparator (run.image c) = false := by
  simp only [Text.CaseRun.covers, Bool.and_eq_true, decide_eq_true_eq] at hc
  cases hs : isSeparator (run.image c) with
  | false => rfl
  | true =>
    obtain ⟨range, hr, hlow, hhigh⟩ := separator_in_range hs
    have hpos : ∀ range ∈ separatorRanges, 0 < range.1 := by decide
    have h0 := hpos range hr
    have hb := h range hr
    simp only [Text.CaseRun.image, Int.ofNat_eq_natCast] at hlow hhigh
    omega

theorem solid_runs {runs : List Text.CaseRun} (h : ∀ run ∈ runs, Avoids run) {c : Nat} (hc : isSeparator c = false) :
    isSeparator ((Text.CaseRun.find? runs c).getD c) = false := by
  unfold Text.CaseRun.find?
  cases hf : runs.find? (·.covers c) with
  | none => exact hc
  | some run =>
    have hcovers := List.find?_some hf
    exact (h run (List.mem_of_find?_eq_some hf)).image hcovers

theorem mem_of_lookup {α β : Type} [BEq α] [LawfulBEq α] {a : α} {b : β} {l : List (α × β)}
    (h : l.lookup a = some b) : (a, b) ∈ l := by
  induction l with
  | nil => cases h
  | cons e l ih =>
    rw [List.lookup_cons] at h
    split at h
    · next he =>
      rw [beq_iff_eq] at he
      cases h
      exact he ▸ List.mem_cons_self
    · exact List.mem_cons_of_mem _ (ih h)

theorem small_is_solid {c : Nat} (h : 65 ≤ c) (h' : c ≤ 122) (hne : c ≠ 95) : isSeparator c = false := by
  cases hs : isSeparator c with
  | false => rfl
  | true =>
    obtain ⟨range, hr, hlow, hhigh⟩ := separator_in_range hs
    have houtside : ∀ range ∈ separatorRanges, range.2 < 65 ∨ 122 < range.1 ∨ range = (95, 95) := by decide
    rcases houtside range hr with h1 | h1 | rfl
    · omega
    · omega
    · omega

theorem solid_upperOne {c : Nat} (hc : isSeparator c = false) : Solid (Text.upperOne c) := by
  unfold Text.upperOne
  split
  · split
    · next hs =>
      simp only [Text.isSmall, Bool.and_eq_true, decide_eq_true_eq] at hs
      exact .singleton (small_is_solid (by omega) (by omega) (by omega))
    · exact .singleton hc
  · split
    · next t ht => exact long_mappings_solid.1 _ (mem_of_lookup ht)
    · exact .singleton (solid_runs runs_avoid.1 hc)

theorem solid_lowerOne {c : Nat} (hc : isSeparator c = false) : Solid (Text.lowerOne c) := by
  unfold Text.lowerOne
  split
  · split
    · next hs =>
      simp only [Text.isCapital, Bool.and_eq_true, decide_eq_true_eq] at hs
      exact .singleton (small_is_solid (by omega) (by omega) (by omega))
    · exact .singleton hc
  · split
    · next t ht => exact long_mappings_solid.2 _ (mem_of_lookup ht)
    · exact .singleton (solid_runs runs_avoid.2 hc)

/-- what upper case keeps of every code point it keeps of a text -/
theorem forall_upper {P : Nat → Prop} (hone : ∀ c, P c → ∀ d ∈ Text.upperOne c, P d) {t : Text} (ht : ∀ c ∈ t, P c) :
    ∀ d ∈ Text.upper t, P d := by
  intro d hd
  obtain ⟨c, hc, hdc⟩ := List.mem_flatMap.1 hd
  exact hone c (ht c hc) d hdc

/-- what lower case keeps of every code point it keeps of a text, if both small sigmas have it -/
theorem forall_lowerAfter {P : Nat → Prop} (hone : ∀ c, P c → ∀ d ∈ Text.lowerOne c, P d) (hfinal : P 0x3C2)
    (hsigma : P 0x3C3) {before t : Text} (ht : ∀ c ∈ t, P c) : ∀ d ∈ Text.lowerAfter before t, P d := by
  induction t generalizing before with
  | nil => exact ht
  | cons c rest ih =>
    intro d hd
    rcases List.mem_append.1 hd with hd | hd
    · split at hd
      · split at hd
        · exact List.mem_singleton.1 hd ▸ hfinal
        · exact List.mem_singleton.1 hd ▸ hsigma
      · exact hone c (ht c List.mem_cons_self) d hd
    · exact ih (fun e he => ht e (List.mem_cons_of_mem _ he)) d hd

theorem solid_upper {t : Text} (ht : Solid t) : Solid (Text.upper t) := forall_upper (fun _ => solid_upperOne) ht

theorem solid_lower {t : Text} (ht : Solid t) : Solid (Text.lower t) :=
  forall_lowerAfter (fun _ => solid_lowerOne) (by decide) (by decide) ht

/-! ## White space -/

/-- no code point of a text is white space -/
def Unspaced (t : Text) : Prop := ∀ c ∈ t, Text.isBlank c = false

instance (t : Text) : Decidable (Unspaced t) := by unfold Unspaced; infer_instance

theorem Unspaced.append {t u : Text} (ht : Unspaced t) (hu : Unspaced u) : Unspaced (t ++ u) :=
  fun c hc => (List.mem_append.1 hc).elim (ht c) (hu c)

theorem Solid.unspaced {t : Text} (ht : Solid t) : Unspaced t := by
  intro c hc
  have hsolid := ht c hc
  simp only [isSeparator, Bool.or_eq_false_iff] at hsolid
  exact hsolid.2

/-- the separators that are no white space have no other case -/
theorem unspaced_separators : ∀ c ∈ [45, 95, 43, 46], Unspaced (Text.upperOne c) ∧ Unspaced (Text.lowerOne c) := by
  decide

theorem solid_or_mark {c : Nat} (hc : Text.isBlank c = false) : isSeparator c = false ∨ c ∈ [45, 95, 43, 46] := by
  by_cases hmark : c ∈ [45, 95, 43, 46]
  · exact .inr hmark
  · simp only [List.mem_cons, List.not_mem_nil, or_false, not_or] at hmark
    simp [isSeparator, hc, hmark]

theorem unspaced_upper {t : Text} (ht : Unspaced t) : Unspaced (Text.upper t) := by
  refine forall_upper (fun c hc => ?_) ht
  rcases solid_or_mark hc with hsolid | hmark
  · exact (solid_upperOne hsolid).unspaced
  · exact (unspaced_separators c hmark).1

theorem unspaced_lower {t : Text} (ht : Unspaced t) : Unspaced (Text.lower t) := by
  refine forall_lowerAfter (fun c hc => ?_) (by decide) (by decide) ht
  rcases solid_or_mark hc with hsolid | hmark
  · exact (solid_lowerOne hsolid).unspaced
  · exact (unspaced_separators c hmark).2

theorem unspaced_joinWith {separator : Text} (hs : Unspaced separator) {pieces : List Text}
    (h : ∀ piece ∈ pieces, Unspaced piece) : Unspaced (Text.joinWith separator pieces) := by
  match pieces with
  | [] => exact fun c hc => absurd hc List.not_mem_nil
  | [piece] => exact h piece List.mem_cons_self
  | piece :: next :: rest =>
    refine (h piece List.mem_cons_self).append (hs.append ?_)
    exact unspaced_joinWith hs fun p hp => h p (List.mem_cons_of_mem _ hp)

/-! ## Words -/

theorem mem_piecesFrom {separates : Nat → Bool} {t word : Text} (hw : ∀ c ∈ word, separates c = false) :
    ∀ piece ∈ Text.piecesFrom separates word t, ∀ c ∈ piece, separates c = false := by
  have hrev : ∀ c ∈ word.reverse, separates c = false := fun c hc => hw c (List.mem_reverse.1 hc)
  induction t generalizing word with
  | nil =>
    intro piece hp
    unfold Text.piecesFrom at hp
    split at hp
    · cases hp
    · exact List.mem_singleton.1 hp ▸ hrev
  | cons d rest ih =>
    have hnil : ∀ piece ∈ Text.piecesFrom separates [] rest, ∀ c ∈ piece, separates c = false :=
      ih (fun c hc => absurd hc List.not_mem_nil) fun c hc => absurd hc List.not_mem_nil
    intro piece hp
    unfold Text.piecesFrom at hp
    split at hp
    · split at hp
      · exact hnil piece hp
      · rcases List.mem_cons.1 hp with rfl | hp
        · exact hrev
        · exact hnil piece hp
    · next hd =>
      have hcons : ∀ c ∈ d :: word, separates c = false := List.forall_mem_cons.2 ⟨eq_false_of_ne_true hd, hw⟩
      exact ih hcons (fun c hc => hcons c (List.mem_reverse.1 hc)) piece hp

theorem solid_capitalized {t : Text} (ht : Solid t) : Solid (capitalized t) := by
  cases t with
  | nil => exact ht
  | cons c rest =>
    refine Solid.append (solid_upper (.singleton (ht c List.mem_cons_self))) ?_
    exact solid_lower (ht.mono (List.subset_cons_self c rest))

theorem solid_capitalizedWords (t : Text) : ∀ word ∈ capitalizedWords t, Solid word := by
  intro word hw
  obtain ⟨piece, hp, rfl⟩ := List.mem_map.1 hw
  exact solid_capitalized (mem_piecesFrom (fun c hc => absurd hc List.not_mem_nil) piece hp)

theorem solid_pascalCase (t : Text) : Solid (pascalCase t) := Solid.flatten (solid_capitalizedWords t)

/-- **A name in camel case has no separator in it.** -/
theorem solid_camelCase (t : Text) : Solid (camelCase t) := by
  have h := solid_pascalCase t
  exact (solid_lower (h.mono (List.take_subset 1 _))).append (h.mono (List.drop_subset 1 _))

theorem unspaced_pascalCase (t : Text) : Unspaced (pascalCase t) := (solid_pascalCase t).unspaced

/-- a name in upper snake case has no white space in it -/
theorem unspaced_upper_snakeCase (t : Text) : Unspaced (Text.upper (snakeCase t)) := by
  refine unspaced_upper (unspaced_lower (unspaced_joinWith (by decide) fun word hw => ?_))
  exact (solid_capitalizedWords t word hw).unspaced

end Name

end InterfacePages
