/-
What is left to do for a case mapping after another one.

ASCII letters have their counterparts in the other case (`big_little`). Above ASCII the tables map runs of code points,
and no run of lower case leads to a code point that lower case maps: what is in lower case stays (`lowerOne_settles`),
and a text stays that has nothing else in it (`lower_fixed`). A capital in lower case comes back from upper case, and
with it its small letter (`recased_capital`). The sharp s alone does not, whose upper case is two letters. Letters in
title case, which have an upper and a lower case of their own, would not come back, but nothing in upper case begins
with one (`upperOne_head`).

The tables are too long to compare code point by code point, so the facts about them compare sets of code points
(`bits`), and those about two tables compare the runs of one with the pages of the other (`upperPages`).
-/
import Mathlib.Data.List.SplitBy
import Mathlib.Tactic.SplitIfs
import InterfacePages.Proofs.NameLetters
import InterfacePages.Proofs.Texts

namespace InterfacePages

namespace Text

/-! ## ASCII letters -/

/-- all code points of a text are ASCII -/
def Ascii (t : Text) : Prop := ∀ c ∈ t, c < 128

instance (t : Text) : Decidable (Ascii t) := by unfold Ascii; infer_instance

def big (c : Nat) : Nat := if isSmall c then c - 32 else c

def little (c : Nat) : Nat := if isCapital c then c + 32 else c

theorem big_little {c : Nat} (h : isSmall c = false) : big (little c) = c := by
  simp only [big, little, isSmall, isCapital, Bool.and_eq_true, Bool.and_eq_false_iff, decide_eq_true_eq,
    decide_eq_false_iff_not] at *
  split <;> split <;> omega

theorem isSmall_big (c : Nat) : isSmall (big c) = false := by
  simp only [big, isSmall, Bool.and_eq_true, Bool.and_eq_false_iff, decide_eq_true_eq, decide_eq_false_iff_not]
  split <;> omega

theorem big_little_big (c : Nat) : big (little (big c)) = big c := big_little (isSmall_big c)

theorem big_big (c : Nat) : big (big c) = big c := by
  simp only [big, isSmall, Bool.and_eq_true, decide_eq_true_eq]
  split_ifs <;> omega

theorem big_capital {c : Nat} (h : isCapital c = true) : big c = c := by
  simp only [big, isSmall, isCapital, Bool.and_eq_true, decide_eq_true_eq] at *
  split <;> omega

theorem little_plain {c : Nat} (h : isCapital c = false) : little c = c := by
  rw [little, h, if_neg Bool.false_ne_true]

theorem isCapital_little (c : Nat) : isCapital (little c) = false := by
  simp only [little, isCapital, Bool.and_eq_true, Bool.and_eq_false_iff, decide_eq_true_eq,
    decide_eq_false_iff_not]
  split <;> omega

theorem big_lt {c : Nat} (h : c < 128) : big c < 128 := by
  unfold big
  split <;> omega

theorem little_lt {c : Nat} (h : c < 128) : little c < 128 := by
  simp only [little, isCapital, Bool.and_eq_true, decide_eq_true_eq]
  split <;> omega

theorem upperOne_ascii {c : Nat} (h : c < 128) : upperOne c = [big c] := by
  rw [upperOne, if_pos h, big]
  split <;> rfl

theorem lowerOne_ascii {c : Nat} (h : c < 128) : lowerOne c = [little c] := by
  rw [lowerOne, if_pos h, little]
  split <;> rfl

theorem lowerAfter_ascii {t : Text} (ht : Ascii t) (before : Text) : lowerAfter before t = t.map little := by
  induction t generalizing before with
  | nil => rfl
  | cons c rest ih =>
    have hc := ht c List.mem_cons_self
    have hsigma : c ≠ capitalSigma := fun h => absurd hc (by rw [h]; decide)
    rw [lowerAfter, if_neg hsigma, lowerOne_ascii hc, ih fun d hd => ht d (List.mem_cons_of_mem _ hd)]
    rfl

theorem lower_ascii {t : Text} (ht : Ascii t) : lower t = t.map little := lowerAfter_ascii ht []

theorem map_little_plain {t : Text} (h : ∀ c ∈ t, isCapital c = false) : t.map little = t :=
  (List.map_congr_left fun c hc => little_plain (h c hc)).trans (List.map_id t)

theorem ascii_map {t : Text} (ht : Ascii t) {f : Nat → Nat} (hf : ∀ c, c < 128 → f c < 128) : Ascii (t.map f) := by
  intro c hc
  obtain ⟨d, hd, rfl⟩ := List.mem_map.1 hc
  exact hf d (ht d hd)

theorem ascii_joinWith {separator : Text} (hs : Ascii separator) {ts : List Text} (h : ∀ t ∈ ts, Ascii t) :
    Ascii (joinWith separator ts) := fun c hc =>
  (mem_joinWith hc).elim (hs c) fun ⟨t, ht, hct⟩ => h t ht c hct

/-! ## Sets of code points -/

/-- a set of code points as a number with a binary digit for each of them, so that sets are compared in one step -/
def bits : List Nat → Nat
  | [] => 0
  | c :: rest => bits rest ||| 1 <<< c

theorem testBit_bits (cs : List Nat) (c : Nat) : (bits cs).testBit c = decide (c ∈ cs) := by
  induction cs with
  | nil => simp [bits]
  | cons d rest ih =>
    rw [bits, Nat.testBit_or, ih, Nat.one_shiftLeft, Nat.testBit_two_pow]
    simp [eq_comm, Bool.or_comm]

theorem testBit_of_apart {cs : List Nat} {set : Nat} (h : bits cs &&& set = 0) {c : Nat} (hc : c ∈ cs) :
    set.testBit c = false := by
  have hboth := congrArg (Nat.testBit · c) h
  simpa [Nat.testBit_and, testBit_bits, hc] using hboth

namespace CaseRun

def points (run : CaseRun) : List Nat :=
  (List.range ((run.last - run.first) / run.step + 1)).map fun i => run.first + run.step * i

def images (run : CaseRun) : List Nat := run.points.map run.image

/-- the run that maps one code point -/
def single (c d : Nat) : CaseRun := ⟨c, c, 1, (d : Int) - c⟩

theorem mem_points {run : CaseRun} {c : Nat} (h : run.covers c = true) : c ∈ run.points := by
  simp only [covers, Bool.and_eq_true, decide_eq_true_eq, beq_iff_eq] at h
  obtain ⟨⟨hfirst, hlast⟩, hstep⟩ := h
  refine List.mem_map.2 ⟨(c - run.first) / run.step, List.mem_range.2 ?_, ?_⟩
  · exact Nat.lt_succ_of_le (Nat.div_le_div_right (by omega))
  · rw [Nat.mul_div_cancel' (Nat.dvd_of_mod_eq_zero hstep)]
    omega

theorem covers_single (c d : Nat) : (single c d).covers c = true := by simp [covers, single]

theorem image_single (c d : Nat) : (single c d).image c = d := by
  simp only [image, single, Int.ofNat_eq_natCast]
  omega

/-- the code points that some runs map, as a set -/
def domain : List CaseRun → Nat
  | [] => 0
  | run :: rest => domain rest ||| bits run.points

theorem testBit_domain {runs : List CaseRun} {run : CaseRun} (hrun : run ∈ runs) {c : Nat} (h : run.covers c = true) :
    (domain runs).testBit c = true := by
  induction runs with
  | nil => cases hrun
  | cons next rest ih =>
    rw [domain, Nat.testBit_or, testBit_bits, Bool.or_eq_true, decide_eq_true_eq]
    rcases List.mem_cons.1 hrun with rfl | hrun
    · exact .inr (mem_points h)
    · exact .inl (ih hrun)

end CaseRun

/-! ## Tables -/

/-- runs that take every code point that some table of long mappings and some table of runs map to the first code point
of what it is mapped to -/
def heads (longs : List (Nat × Text)) (runs : List CaseRun) : List CaseRun :=
  longs.map (fun e => .single e.1 (e.2.headD e.1)) ++ runs

/-- the first code points of what upper case maps code points to -/
def upperHeads : List CaseRun := heads longUppers upperRuns

/-- the first code points of what lower case maps code points to -/
def lowerHeads : List CaseRun := heads longLowers lowerRuns

section

variable {longs : List (Nat × Text)} {runs : List CaseRun} {c : Nat}

theorem lookup_of_clear (h : (CaseRun.domain (heads longs runs)).testBit c = false) : longs.lookup c = none := by
  cases hl : longs.lookup c with
  | none => rfl
  | some t =>
    have hrun : CaseRun.single c (t.headD c) ∈ heads longs runs :=
      List.mem_append_left runs (List.mem_map.2 ⟨_, Name.mem_of_lookup hl, rfl⟩)
    rw [CaseRun.testBit_domain hrun (CaseRun.covers_single c _)] at h
    cases h

theorem find?_of_clear (h : (CaseRun.domain (heads longs runs)).testBit c = false) : CaseRun.find? runs c = none := by
  rw [CaseRun.find?, Option.map_eq_none_iff]
  refine List.find?_eq_none.2 fun run hrun hcovers => ?_
  have hmem : run ∈ heads longs runs := List.mem_append_right _ hrun
  rw [CaseRun.testBit_domain hmem hcovers] at h
  cases h

end

theorem upperOne_of_clear {c : Nat} (hc : 128 ≤ c) (h : (CaseRun.domain upperHeads).testBit c = false) :
    upperOne c = [c] := by
  rw [upperOne, if_neg (by omega), lookup_of_clear h, find?_of_clear h]
  rfl

theorem lowerOne_of_clear {c : Nat} (hc : 128 ≤ c) (h : (CaseRun.domain lowerHeads).testBit c = false) :
    lowerOne c = [c] := by
  rw [lowerOne, if_neg (by omega), lookup_of_clear h, find?_of_clear h]
  rfl

/-! ## What is mapped once -/

/-- no case leads to what it maps, and no run of lower case but that of the Kelvin sign leads to ASCII -/
theorem runs_settle : bits (upperHeads.flatMap CaseRun.images) &&& CaseRun.domain upperHeads = 0 ∧
    bits (lowerRuns.flatMap CaseRun.images) &&& CaseRun.domain lowerHeads = 0 ∧
    ∀ run ∈ lowerRuns, (128 : Int) ≤ run.first + run.shift ∨ (run.first = 0x212A ∧ run.last = 0x212A) := by
  decide +kernel

theorem image_settles {runs : List CaseRun} {set : Nat} (h : bits (runs.flatMap CaseRun.images) &&& set = 0)
    {run : CaseRun} (hrun : run ∈ runs) {c : Nat} (hc : run.covers c = true) : set.testBit (run.image c) = false :=
  testBit_of_apart h (List.mem_flatMap.2 ⟨run, hrun, List.mem_map_of_mem (CaseRun.mem_points hc)⟩)

/-- the first code point in upper case of one above ASCII is that of a run, or the code point itself -/
theorem upperOne_cases {c : Nat} (hc : 128 ≤ c) : upperOne c = [c] ∨
    ∃ run ∈ upperHeads, run.covers c = true ∧ ∃ rest, upperOne c = run.image c :: rest := by
  rw [upperOne, if_neg (by omega)]
  cases hl : longUppers.lookup c with
  | some t =>
    have hmem := Name.mem_of_lookup hl
    obtain ⟨d, rest, rfl⟩ := List.exists_cons_of_ne_nil (Name.longUppers_raised _ hmem).2
    have hsingle : CaseRun.single c d ∈ upperHeads := List.mem_append_left _ (List.mem_map.2 ⟨_, hmem, rfl⟩)
    refine .inr ⟨.single c d, hsingle, CaseRun.covers_single c d, rest, ?_⟩
    rw [CaseRun.image_single]
  | none =>
    unfold CaseRun.find?
    cases hf : upperRuns.find? (·.covers c) with
    | none => exact .inl rfl
    | some run =>
      have hcovers := List.find?_some hf
      exact .inr ⟨run, List.mem_append_right _ (List.mem_of_find?_eq_some hf), hcovers, [], rfl⟩

/-- **What upper case begins with upper case leaves alone.** -/
theorem upperOne_head {c d : Nat} (h : (upperOne c).head? = some d) : upperOne d = [d] := by
  have hraised : isSmall d = false := (Name.raised_upperOne c).1 d h
  by_cases hd : d < 128
  · rw [upperOne_ascii hd, big, hraised, if_neg Bool.false_ne_true]
  · by_cases hc : c < 128
    · rw [upperOne_ascii hc] at h
      cases h
      exact absurd (big_lt hc) hd
    · rcases upperOne_cases (Nat.not_lt.1 hc) with hself | ⟨run, hrun, hcovers, rest, himage⟩
      · rw [hself] at h
        cases h
        exact hself
      · rw [himage] at h
        cases h
        exact upperOne_of_clear (Nat.not_lt.1 hd) (image_settles runs_settle.1 hrun hcovers)

/-- the lower case of a code point above ASCII is that of a run, or that of the dotted capital i, or the code point -/
theorem lowerOne_cases {c : Nat} (hc : 128 ≤ c) : lowerOne c = [c] ∨ c = 0x130 ∨
    ∃ run ∈ lowerRuns, run.covers c = true ∧ lowerOne c = [run.image c] := by
  rw [lowerOne, if_neg (by omega)]
  cases hl : longLowers.lookup c with
  | some t =>
    have hmem := Name.mem_of_lookup hl
    simp only [longLowers, List.mem_singleton, Prod.mk.injEq] at hmem
    exact .inr (.inl hmem.1)
  | none =>
    unfold CaseRun.find?
    cases hf : lowerRuns.find? (·.covers c) with
    | none => exact .inl rfl
    | some run =>
      have hcovers := List.find?_some hf
      exact .inr (.inr ⟨run, List.mem_of_find?_eq_some hf, hcovers, rfl⟩)

theorem image_high {run : CaseRun} (hrun : run ∈ lowerRuns) {c : Nat} (hc : run.covers c = true) :
    128 ≤ run.image c ∨ c = 0x212A := by
  have hhigh := runs_settle.2.2 run hrun
  simp only [CaseRun.covers, Bool.and_eq_true, decide_eq_true_eq] at hc
  simp only [CaseRun.image, Int.ofNat_eq_natCast]
  omega

/-- **What is in lower case lower case leaves alone.** -/
theorem lowerOne_settles {c d : Nat} (h : d ∈ lowerOne c) : lowerOne d = [d] := by
  by_cases hc : c < 128
  · rw [lowerOne_ascii hc, List.mem_singleton] at h
    rw [h, lowerOne_ascii (little_lt hc), little_plain (isCapital_little c)]
  · rcases lowerOne_cases (Nat.not_lt.1 hc) with hself | rfl | ⟨run, hrun, hcovers, himage⟩
    · rw [hself, List.mem_singleton] at h
      exact h ▸ hself
    · rcases List.mem_cons.1 h with rfl | h
      · rfl
      · rw [List.mem_singleton.1 h]
        rfl
    · rw [himage, List.mem_singleton] at h
      rcases image_high hrun hcovers with hhigh | rfl
      · exact h ▸ lowerOne_of_clear hhigh (image_settles runs_settle.2.1 hrun hcovers)
      · have hkelvin : lowerOne 0x212A = [107] := rfl
        rw [himage, List.cons.injEq] at hkelvin
        rw [h, hkelvin.1]
        rfl

theorem lower_singleton (c : Nat) : lower [c] = lowerOne c := by
  rw [lower, lowerAfter, lowerAfter, List.append_nil]
  split
  · next h =>
    rw [h]
    rfl
  · rfl

/-- texts that are not shorter than two texts follow each other as these do just when they are the same -/
theorem append_fixed {t u t' u' : Text} (ht : t.length ≤ t'.length) (hu : u.length ≤ u'.length) :
    t' ++ u' = t ++ u ↔ t' = t ∧ u' = u := by
  refine ⟨fun h => ?_, fun ⟨ht, hu⟩ => by rw [ht, hu]⟩
  have hlength := congrArg List.length h
  simp only [List.length_append] at hlength
  exact List.append_inj h (by omega)

theorem length_lowerAfter (before t : Text) : t.length ≤ (lowerAfter before t).length := by
  induction t generalizing before with
  | nil => exact Nat.zero_le _
  | cons c rest ih =>
    have hone := (Name.length_lowerOne c).1
    have hrest := ih (c :: before)
    rw [lowerAfter, List.length_append, List.length_cons]
    split
    · split <;> simp only [List.length_singleton] <;> omega
    · omega

theorem length_lower (t : Text) : t.length ≤ (lower t).length := length_lowerAfter [] t

theorem lowerOne_sigma : lowerOne capitalSigma = [0x3C3] := rfl

theorem lowerAfter_fixed (before t : Text) : lowerAfter before t = t ↔ ∀ c ∈ t, lowerOne c = [c] := by
  induction t generalizing before with
  | nil => exact ⟨fun _ _ hc => absurd hc List.not_mem_nil, fun _ => rfl⟩
  | cons c rest ih =>
    have hrest := length_lowerAfter (c :: before) rest
    rw [List.forall_mem_cons, ← ih (c :: before), lowerAfter]
    change _ = [c] ++ rest ↔ _
    by_cases hc : c = capitalSigma
    · subst hc
      rw [if_pos rfl, append_fixed (by split <;> exact Nat.le_refl 1) hrest, lowerOne_sigma]
      exact and_congr_left' (by split <;> decide)
    · have hone : [c].length ≤ (lowerOne c).length := (Name.length_lowerOne c).1
      rw [if_neg hc, append_fixed hone hrest]

/-- **Lower case leaves a text alone when it leaves every code point of it alone.** -/
theorem lower_fixed (t : Text) : lower t = t ↔ ∀ c ∈ t, lowerOne c = [c] := lowerAfter_fixed [] t

theorem mem_lowerAfter {before t : Text} {d : Nat} (h : d ∈ lowerAfter before t) :
    (∃ c ∈ t, d ∈ lowerOne c) ∨ d ∈ [0x3C2, 0x3C3] := by
  induction t generalizing before with
  | nil => cases h
  | cons c rest ih =>
    rcases List.mem_append.1 h with h | h
    · split at h
      · refine .inr ?_
        split at h <;> rw [List.mem_singleton.1 h] <;> decide
      · exact .inl ⟨c, List.mem_cons_self, h⟩
    · exact (ih h).imp_left fun ⟨e, he, hd⟩ => ⟨e, List.mem_cons_of_mem _ he, hd⟩

theorem lower_settles {t : Text} {d : Nat} (h : d ∈ lower t) : lowerOne d = [d] := by
  rcases mem_lowerAfter h with ⟨c, _, hd⟩ | hd
  · exact lowerOne_settles hd
  · rcases List.mem_cons.1 hd with rfl | hd
    · rfl
    · rw [List.mem_singleton.1 hd]
      rfl

/-! ## There and back -/

/-- the letters in title case: they have an upper and a lower case of their own -/
def titleLetters : List Nat := [
  0x1C5, 0x1C8, 0x1CB, 0x1F2, 0x1F88, 0x1F89, 0x1F8A, 0x1F8B, 0x1F8C, 0x1F8D, 0x1F8E, 0x1F8F, 0x1F98, 0x1F99, 0x1F9A,
  0x1F9B, 0x1F9C, 0x1F9D, 0x1F9E, 0x1F9F, 0x1FA8, 0x1FA9, 0x1FAA, 0x1FAB, 0x1FAC, 0x1FAD, 0x1FAE, 0x1FAF, 0x1FBC, 0x1FCC,
  0x1FFC]

/-- the capitals whose small letters belong to other capitals -/
def twins : List Nat := [0x3F4, 0x1E9E, 0x2126, 0x212A, 0x212B]

/-- the capitals whose small letters do not come back as they went, as a set -/
def odd : Nat := bits (titleLetters ++ twins)

/-- where the other capitals of a run are in lower case -/
def CaseRun.smalls (run : CaseRun) : List Nat := (run.points.filter fun c => !odd.testBit c).map run.image

/-- the runs of upper case, those together that begin in the same 256 code points -/
def upperPages : List (List CaseRun) := upperRuns.splitBy fun run next => run.first / 256 == next.first / 256

theorem exists_upperPage {run : CaseRun} (h : run ∈ upperRuns) : ∃ page ∈ upperPages, run ∈ page := by
  rw [← List.flatten_splitBy (fun run next : CaseRun => run.first / 256 == next.first / 256) upperRuns] at h
  exact List.mem_flatten.1 h

/-- a code point in upper case, and the first code point of that in lower case again -/
def recased (c : Nat) : Text := lower ((upperOne c).take 1) ++ (upperOne c).drop 1

/-- letters in title case are not in upper case, and the small letters of twins come back, all but the sharp s -/
theorem odd_recased : (∀ c ∈ titleLetters, upperOne c ≠ [c]) ∧
    ∀ c ∈ twins, ∀ d ∈ lowerOne c, recased d = [d] ↔ d ≠ 0xDF := by
  decide +kernel

/-- upper case takes small letters back where they came from, as far as it moves them -/
theorem runs_opposite : lowerRuns.all (fun run =>
    upperPages.all (fun page => bits run.smalls &&& CaseRun.domain page == 0 ||
      page.all fun other => bits run.smalls &&& bits other.points == 0 || other.shift == -run.shift) &&
    bits run.smalls &&& bits (longUppers.map Prod.fst) == 0) = true := by
  decide +kernel

theorem opposite {run other : CaseRun} (hrun : run ∈ lowerRuns) (hother : other ∈ upperRuns) {d : Nat}
    (hd : d ∈ run.smalls) (hcovers : other.covers d = true) : other.shift = -run.shift := by
  obtain ⟨page, hpage, hother⟩ := exists_upperPage hother
  have hrun := List.all_eq_true.1 runs_opposite run hrun
  rw [Bool.and_eq_true, List.all_eq_true] at hrun
  have hpage := hrun.1 page hpage
  rw [Bool.or_eq_true, List.all_eq_true, beq_iff_eq] at hpage
  rcases hpage with hapart | hpage
  · have hout := testBit_of_apart hapart hd
    rw [CaseRun.testBit_domain hother hcovers] at hout
    cases hout
  · have hother := hpage other hother
    rw [Bool.or_eq_true, beq_iff_eq, beq_iff_eq] at hother
    refine hother.resolve_left fun hapart => ?_
    have hout := testBit_of_apart hapart hd
    rw [testBit_bits, decide_eq_false_iff_not] at hout
    exact hout (CaseRun.mem_points hcovers)

theorem lookup_small {run : CaseRun} (hrun : run ∈ lowerRuns) {d : Nat} (hd : d ∈ run.smalls) :
    longUppers.lookup d = none := by
  have hrun := List.all_eq_true.1 runs_opposite run hrun
  rw [Bool.and_eq_true, beq_iff_eq] at hrun
  have hout := testBit_of_apart hrun.2 hd
  rw [testBit_bits, decide_eq_false_iff_not] at hout
  cases hl : longUppers.lookup d with
  | none => rfl
  | some t => exact absurd (List.mem_map.2 ⟨_, Name.mem_of_lookup hl, rfl⟩) hout

theorem recased_of_fixed {c : Nat} (hupper : upperOne c = [c]) (hlower : lowerOne c = [c]) : recased c = [c] := by
  rw [recased, hupper]
  exact (List.append_nil _).trans ((lower_singleton c).trans hlower)

theorem image_mem_smalls {run : CaseRun} {c : Nat} (hcovers : run.covers c = true)
    (hplain : c ∉ titleLetters ++ twins) : run.image c ∈ run.smalls := by
  refine List.mem_map_of_mem (List.mem_filter.2 ⟨CaseRun.mem_points hcovers, ?_⟩)
  rw [odd, testBit_bits, decide_eq_false hplain]
  rfl

theorem recased_image {run : CaseRun} (hrun : run ∈ lowerRuns) {c : Nat} (hcovers : run.covers c = true)
    (himage : lowerOne c = [run.image c]) (hplain : c ∉ titleLetters ++ twins) :
    recased (run.image c) = [run.image c] := by
  have hsmall := image_mem_smalls hcovers hplain
  have hhigh : 128 ≤ run.image c := (image_high hrun hcovers).resolve_right fun h => hplain (h ▸ by decide)
  have hupper : upperOne (run.image c) = [(CaseRun.find? upperRuns (run.image c)).getD (run.image c)] := by
    rw [upperOne, if_neg (by omega), lookup_small hrun hsmall]
  unfold CaseRun.find? at hupper
  cases hf : upperRuns.find? (·.covers (run.image c)) with
  | none =>
    rw [hf] at hupper
    exact recased_of_fixed hupper (lowerOne_settles (by rw [himage]; exact List.mem_singleton_self _))
  | some other =>
    have hback := List.find?_some hf
    have hshift := opposite hrun (List.mem_of_find?_eq_some hf) hsmall hback
    have hreturn : other.image (run.image c) = c := by
      simp only [CaseRun.image, Int.ofNat_eq_natCast, hshift] at hhigh ⊢
      omega
    rw [hf, Option.map_some, Option.getD_some, hreturn] at hupper
    rw [recased, hupper]
    exact (List.append_nil _).trans ((lower_singleton c).trans himage)

/-- **Letters in lower case come back from upper case, all but the sharp s.** -/
theorem recased_capital {c d : Nat} (hc : upperOne c = [c]) (hd : (lowerOne c).head? = some d) :
    recased d = [d] ↔ d ≠ 0xDF := by
  by_cases hascii : c < 128
  · rw [lowerOne_ascii hascii] at hd
    cases hd
    rw [upperOne_ascii hascii, List.cons.injEq] at hc
    have hlow := little_lt hascii
    have hsmall : isSmall c = false := by rw [← hc.1]; exact isSmall_big c
    refine iff_of_true ?_ (by omega)
    rw [recased, upperOne_ascii hlow, big_little hsmall]
    exact (List.append_nil _).trans ((lower_singleton c).trans (lowerOne_ascii hascii))
  · rcases lowerOne_cases (Nat.not_lt.1 hascii) with hself | rfl | ⟨run, hrun, hcovers, himage⟩
    · rw [hself] at hd
      cases hd
      refine iff_of_true (recased_of_fixed hc hself) fun h => ?_
      subst h
      have hsharp : upperOne 0xDF = [0x53, 0x53] := rfl
      rw [hsharp] at hc
      cases hc
    · have hdotted : lowerOne 0x130 = [105, 0x307] := rfl
      rw [hdotted] at hd
      cases hd
      exact iff_of_true rfl (by decide)
    · by_cases hplain : c ∈ titleLetters ++ twins
      · rcases List.mem_append.1 hplain with htitle | htwin
        · exact absurd hc (odd_recased.1 c htitle)
        · exact odd_recased.2 c htwin d (List.mem_of_mem_head? hd)
      · rw [himage] at hd
        cases hd
        refine iff_of_true (recased_image hrun hcovers himage hplain) fun h => ?_
        have hlookup := lookup_small hrun (image_mem_smalls hcovers hplain)
        have hsharp : longUppers.lookup 0xDF = some [0x53, 0x53] := rfl
        rw [h, hsharp] at hlookup
        cases hlookup

end Text

end InterfacePages
