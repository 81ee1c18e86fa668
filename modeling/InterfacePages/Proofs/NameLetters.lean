/-
How the spellings of a name begin, and how long they are.

A name in Pascal case never begins with an ASCII small letter, because no mapping to capitals has one among its images
(`raised_pascalCase`). Camel case differs from Pascal case in its first letter alone, which becomes one code point or
two: so the lengths of the two spellings differ by one at most (`length_camelCase`), and what one name has behind
another in Pascal case, it has in camel case too (`length_camelCase_append`).
-/
import InterfacePages.Proofs.NameCharacters

namespace InterfacePages

namespace Name

/-! ## First letters -/

/-- a text does not begin with an ASCII small letter -/
def Raised (t : Text) : Prop := ∀ c ∈ t.head?, Text.isSmall c = false

instance (t : Text) : Decidable (Raised t) := by unfold Raised; infer_instance

theorem raised_nil : Raised [] := fun _ h => nomatch h

theorem Raised.append_right {t : Text} (ht : Raised t) (hne : t ≠ []) (u : Text) : Raised (t ++ u) := by
  cases t with
  | nil => exact absurd rfl hne
  | cons c rest => exact ht

theorem Raised.append {t u : Text} (ht : Raised t) (hu : Raised u) : Raised (t ++ u) := by
  by_cases hne : t = []
  · rwa [hne, List.nil_append]
  · exact ht.append_right hne u

theorem Raised.flatten {ts : List Text} (h : ∀ t ∈ ts, Raised t) : Raised ts.flatten := by
  induction ts with
  | nil => exact raised_nil
  | cons t rest ih => exact (h t List.mem_cons_self).append (ih fun u hu => h u (List.mem_cons_of_mem _ hu))

theorem Raised.head_ne {t : Text} (h : Raised t) {c : Nat} (hc : Text.isSmall c = true) : t.head? ≠ some c := by
  intro hhead
  rw [h c hhead] at hc
  cases hc

/-- a run sends no code point to an ASCII small letter -/
def Raises (run : Text.CaseRun) : Prop :=
  (run.last : Int) + run.shift < 97 ∨ 122 < (run.first : Int) + run.shift

instance (run : Text.CaseRun) : Decidable (Raises run) := by unfold Raises; infer_instance

theorem upperRuns_raise : ∀ run ∈ Text.upperRuns, Raises run := by decide +kernel

theorem longUppers_raised : ∀ e ∈ Text.longUppers, Raised e.2 ∧ e.2 ≠ [] := by decide +kernel

theorem Raises.image {run : Text.CaseRun} (h : Raises run) {c : Nat} (hc : run.covers c = true) :
    Text.isSmall (run.image c) = false := by
  simp only [Text.CaseRun.covers, Bool.and_eq_true, decide_eq_true_eq] at hc
  refine eq_false_of_ne_true fun hs => ?_
  simp only [Text.isSmall, Bool.and_eq_true, decide_eq_true_eq] at hs
  simp only [Text.CaseRun.image, Int.ofNat_eq_natCast] at hs
  unfold Raises at h
  omega

theorem raised_singleton {c : Nat} (h : Text.isSmall c = false) : Raised [c] :=
  fun _ hd => (Option.some.inj hd) ▸ h

theorem raised_upperOne (c : Nat) : Raised (Text.upperOne c) ∧ Text.upperOne c ≠ [] := by
  unfold Text.upperOne
  split
  · split
    · next hs =>
      refine ⟨raised_singleton ?_, List.cons_ne_nil _ _⟩
      simp only [Text.isSmall, Bool.and_eq_true, Bool.and_eq_false_iff, decide_eq_true_eq,
        decide_eq_false_iff_not] at hs ⊢
      omega
    · next hs => exact ⟨raised_singleton (eq_false_of_ne_true hs), List.cons_ne_nil _ _⟩
  · next hc =>
    split
    · next t ht => exact longUppers_raised _ (mem_of_lookup ht)
    · refine ⟨raised_singleton ?_, List.cons_ne_nil _ _⟩
      unfold Text.CaseRun.find?
      cases hf : Text.upperRuns.find? (·.covers c) with
      | none =>
        simp only [Option.map_none, Option.getD_none, Text.isSmall, Bool.and_eq_false_iff, decide_eq_false_iff_not]
        omega
      | some run =>
        have hcovers := List.find?_some hf
        exact (upperRuns_raise run (List.mem_of_find?_eq_some hf)).image hcovers

theorem raised_upper (t : Text) : Raised (Text.upper t) := by
  cases t with
  | nil => exact raised_nil
  | cons c rest =>
    obtain ⟨hraised, hne⟩ := raised_upperOne c
    rw [Text.upper, List.flatMap_cons]
    exact hraised.append_right hne _

theorem raised_capitalized (t : Text) : Raised (capitalized t) := by
  cases t with
  | nil => exact raised_nil
  | cons c rest =>
    obtain ⟨hraised, hne⟩ := raised_upperOne c
    have hword : capitalized (c :: rest) = Text.upperOne c ++ Text.lower rest := by
      rw [capitalized, Text.upper, List.flatMap_singleton]
    rw [hword]
    exact hraised.append_right hne _

/-- **A name in Pascal case does not begin with an ASCII small letter.** -/
theorem raised_pascalCase (name : Text) : Raised (pascalCase name) := by
  refine Raised.flatten fun word hw => ?_
  obtain ⟨piece, _, rfl⟩ := List.mem_map.1 hw
  exact raised_capitalized piece

/-! ## Lengths -/

theorem longLowers_length : ∀ e ∈ Text.longLowers, 1 ≤ e.2.length ∧ e.2.length ≤ 2 := by decide

theorem length_lowerOne (c : Nat) : 1 ≤ (Text.lowerOne c).length ∧ (Text.lowerOne c).length ≤ 2 := by
  unfold Text.lowerOne
  split
  · split <;> simp
  · split
    · next t ht => exact longLowers_length _ (mem_of_lookup ht)
    · simp

theorem length_lower_singleton (c : Nat) : 1 ≤ (Text.lower [c]).length ∧ (Text.lower [c]).length ≤ 2 := by
  unfold Text.lower Text.lowerAfter Text.lowerAfter
  rw [List.append_nil]
  split
  · split <;> simp
  · exact length_lowerOne c

theorem camelCase_nil {name : Text} (h : pascalCase name = []) : camelCase name = [] := by
  rw [camelCase, h]
  rfl

theorem camelCase_cons {name : Text} {c : Nat} {rest : Text} (h : pascalCase name = c :: rest) :
    camelCase name = Text.lower [c] ++ rest := by
  rw [camelCase, h]
  rfl

theorem length_camelCase (name : Text) :
    (pascalCase name).length ≤ (camelCase name).length ∧ (camelCase name).length ≤ (pascalCase name).length + 1 := by
  cases h : pascalCase name with
  | nil => simp [camelCase_nil h]
  | cons c rest =>
    have hone := length_lower_singleton c
    rw [camelCase_cons h, List.length_append, List.length_cons]
    omega

/-- what a name has behind another in Pascal case makes its camel case longer too -/
theorem length_camelCase_append {name other behind : Text} (h : pascalCase name = pascalCase other ++ behind) :
    (camelCase other).length + behind.length ≤ (camelCase name).length := by
  cases ho : pascalCase other with
  | nil =>
    have hlength := (length_camelCase name).1
    rw [h, ho, List.nil_append] at hlength
    simpa [camelCase_nil ho] using hlength
  | cons c rest =>
    rw [ho, List.cons_append] at h
    rw [camelCase_cons h, camelCase_cons ho]
    simp only [List.length_append]
    omega

end Name

end InterfacePages
