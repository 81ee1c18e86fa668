/-
How the syntax of imports is read.

A symbol is written in one of four ways: a name or a name with the name used, each with the mark of a type or without
(`Form`). A text may have two forms, since `type` and `as` are names like any other: `type as as` is a symbol called
`type` that is used as `as`, and `type as as as` is the type of a symbol called `as`. Names have no spaces, so a text
has at most one form with the mark and at most one without it, and reading takes the one with the mark if there is one
(`Takes`, `parse_eq_ok`).

What is read is written without a name used that repeats the name, and is read back from that (`parse_text_again`); a
symbol whose names are words is read back whatever the words are (`parse_text`).
-/
import InterfacePages.Import.Basic
import InterfacePages.Proofs.NameCharacters
import InterfacePages.Proofs.Texts

namespace InterfacePages

namespace Text

/-! ## White space at the ends -/

/-- a text neither begins nor ends with white space -/
def Stripped (t : Text) : Prop := (∀ c ∈ t.head?, isBlank c = false) ∧ ∀ c ∈ t.getLast?, isBlank c = false

theorem strip_of_stripped {t : Text} (h : Stripped t) : strip t = t := trimBoth_eq_self h.1 h.2

theorem stripped_strip (t : Text) : Stripped (strip t) := by
  have hstrip : strip t = (t.dropWhile isBlank).rdropWhile isBlank := rfl
  have hstart : ∀ c ∈ (t.dropWhile isBlank).head?, isBlank c = false := by
    intro c hc
    have hhead := List.head?_dropWhile_not isBlank t
    rwa [Option.mem_def.1 hc] at hhead
  rw [hstrip]
  refine ⟨fun c hc => hstart c ?_, fun c hc => ?_⟩
  · obtain ⟨rest, hrest⟩ := List.rdropWhile_prefix (p := isBlank) (t.dropWhile isBlank)
    rw [← hrest, List.head?_append_of_ne_nil _ (List.ne_nil_of_mem (List.mem_of_head? hc))]
    exact hc
  · have hne := List.ne_nil_of_mem (List.mem_of_getLast? hc)
    have hlast := List.rdropWhile_last_not isBlank _ hne
    rw [List.getLast?_eq_some_getLast hne, Option.mem_some_iff] at hc
    simpa [← hc] using hlast

end Text

namespace Import

open Name (Unspaced)

/-! ## Forms -/

/-- a way to write a symbol: with the mark of a type or without, a name, and perhaps the name used -/
structure Form where
  isType : Bool
  name : Text
  used? : Option Text
  name_ne_nil : name ≠ []
  spaceless : 32 ∉ name
  used_ne_nil : ∀ t ∈ used?, t ≠ []
  used_one_line : ∀ t ∈ used?, 10 ∉ t

namespace Form

def ending (f : Form) : Text := f.used?.elim [] (aliasMark ++ ·)

def text (f : Form) : Text := (if f.isType then typeMark else []) ++ (f.name ++ f.ending)

def symbol (f : Form) : Import := ⟨f.name, f.isType, f.used?.getD f.name⟩

theorem ending_head (f : Form) : ∀ c ∈ f.ending.head?, c = 32 := by
  intro c hc
  unfold ending at hc
  cases hu : f.used? with
  | none => simp [hu] at hc
  | some t =>
    rw [hu] at hc
    exact (Option.mem_some_iff.1 hc).symm

/-- the name of a form reaches up to the first space -/
theorem split (f : Form) :
    (f.name ++ f.ending).takeWhile (· != 32) = f.name ∧ (f.name ++ f.ending).dropWhile (· != 32) = f.ending := by
  have hname : ∀ c ∈ f.name, (c != 32) = true := by
    intro c hc
    rw [bne_iff_ne]
    rintro rfl
    exact f.spaceless hc
  rw [List.takeWhile_append_of_pos hname, List.dropWhile_append_of_pos hname]
  cases he : f.ending with
  | nil => simp
  | cons c rest =>
    have hc : c = 32 := f.ending_head c (by simp [he])
    simp [hc]

end Form

/-! ## Reading names -/

/-- names are read exactly from the forms -/
theorem parseNames?_eq_some {isType : Bool} {t : Text} {i : Import} :
    parseNames? isType t = some i ↔ ∃ f : Form, f.isType = isType ∧ f.name ++ f.ending = t ∧ f.symbol = i := by
  constructor
  · intro h
    unfold parseNames? at h
    have hspaceless : 32 ∉ t.takeWhile (· != 32) := fun hm => by simpa using List.mem_takeWhile_imp hm
    have hsplit := List.takeWhile_append_dropWhile (p := (· != 32)) (l := t)
    generalize t.takeWhile (· != 32) = name at h hspaceless hsplit
    by_cases hname : name = []
    · simp [hname] at h
    · simp only [List.isEmpty_eq_false_iff.2 hname, Bool.false_eq_true, if_false] at h
      split at h
      · next hrest =>
        cases h
        exact ⟨⟨isType, name, none, hname, hspaceless, by simp, by simp⟩, rfl, by rwa [hrest] at hsplit, rfl⟩
      · split at h
        · next used hused =>
          split at h
          · cases h
          · next hok =>
            cases h
            simp only [Bool.or_eq_true, List.isEmpty_iff, List.contains_iff_mem, not_or] at hok
            refine ⟨⟨isType, name, some used, hname, hspaceless, by simpa using hok.1, by simpa using hok.2⟩, rfl, ?_,
              rfl⟩
            rw [← hsplit, Text.eq_of_after? hused]
            rfl
        · cases h
  · rintro ⟨f, rfl, rfl, rfl⟩
    unfold parseNames?
    rw [f.split.1, f.split.2]
    simp only [List.isEmpty_eq_false_iff.2 f.name_ne_nil, Bool.false_eq_true, if_false]
    unfold Form.ending Form.symbol
    cases hu : f.used? with
    | none => rfl
    | some used =>
      have hafter : Text.after? aliasMark (aliasMark ++ used) = some used := Text.after?_append aliasMark used
      have hne := f.used_ne_nil used hu
      have hline := f.used_one_line used hu
      split
      · next hnil => cases hnil
      · rw [Option.elim_some, hafter]
        simp [hne, hline]

/-! ## Reading symbols -/

/-- the form as which a text is read: one with the mark of a type, if the text has any -/
structure Takes (t : Text) (f : Form) : Prop where
  text_eq : f.text = t
  marked : ∀ g : Form, g.text = t → g.isType = true → f.isType = true

theorem Form.text_marked {f : Form} (h : f.isType = true) : f.text = typeMark ++ (f.name ++ f.ending) := by
  simp [Form.text, h]

theorem Form.text_unmarked {f : Form} (h : f.isType = false) : f.text = f.name ++ f.ending := by
  simp [Form.text, h]

theorem marked_eq_some {t : Text} {i : Import} :
    (Text.after? typeMark t).bind (parseNames? true) = some i ↔
      ∃ f : Form, f.isType = true ∧ f.text = t ∧ f.symbol = i := by
  rw [Option.bind_eq_some_iff]
  constructor
  · rintro ⟨rest, hrest, hi⟩
    obtain ⟨f, hf, rfl, hsymbol⟩ := parseNames?_eq_some.1 hi
    exact ⟨f, hf, by rw [Form.text_marked hf, Text.eq_of_after? hrest], hsymbol⟩
  · rintro ⟨f, hf, rfl, hsymbol⟩
    refine ⟨f.name ++ f.ending, ?_, parseNames?_eq_some.2 ⟨f, hf, rfl, hsymbol⟩⟩
    rw [Form.text_marked hf, Text.after?_append]

theorem unmarked_eq_some {t : Text} {i : Import} :
    parseNames? false t = some i ↔ ∃ f : Form, f.isType = false ∧ f.text = t ∧ f.symbol = i := by
  rw [parseNames?_eq_some]
  constructor
  · rintro ⟨f, hf, ht, hsymbol⟩
    exact ⟨f, hf, by rw [Form.text_unmarked hf, ht], hsymbol⟩
  · rintro ⟨f, hf, ht, hsymbol⟩
    exact ⟨f, hf, by rw [← Form.text_unmarked hf, ht], hsymbol⟩

/-- a text without white space at its ends is read as the form it takes -/
theorem parseStripped?_eq_some {t : Text} {i : Import} :
    parseStripped? t = some i ↔ ∃ f : Form, Takes t f ∧ f.symbol = i := by
  unfold parseStripped?
  cases hm : (Text.after? typeMark t).bind (parseNames? true) with
  | some j =>
    obtain ⟨g, hg, hgt, hgj⟩ := marked_eq_some.1 hm
    constructor
    · rintro hi
      cases hi
      exact ⟨g, ⟨hgt, fun _ _ _ => hg⟩, hgj⟩
    · rintro ⟨f, hf, hsymbol⟩
      have hi := marked_eq_some.2 ⟨f, hf.marked g hgt hg, hf.text_eq, hsymbol⟩
      rw [← hm, hi]
  | none =>
    have hnone : ∀ g : Form, g.text = t → g.isType = false := by
      intro g hg
      by_contra hmark
      have hsome := marked_eq_some.2 ⟨g, by simpa using hmark, hg, rfl⟩
      rw [hm] at hsome
      cases hsome
    refine unmarked_eq_some.trans ⟨?_, ?_⟩
    · rintro ⟨f, hf, hft, hsymbol⟩
      refine ⟨f, ⟨hft, fun g hgt hg => ?_⟩, hsymbol⟩
      rw [hnone g hgt] at hg
      cases hg
    · rintro ⟨f, hf, hsymbol⟩
      exact ⟨f, hnone f hf.text_eq, hf.text_eq, hsymbol⟩

theorem parse_eq_ok {raw : Text} {i : Import} :
    parse raw = .ok i ↔ ∃ f : Form, Takes (Text.strip raw) f ∧ f.symbol = i := by
  rw [← parseStripped?_eq_some]
  unfold parse parse?
  cases parseStripped? (Text.strip raw) <;> simp

/-- of the forms of a text there is one that it takes -/
theorem exists_takes {t : Text} (g : Form) (hg : g.text = t) : ∃ f, Takes t f := by
  by_cases hmarked : ∃ f : Form, f.text = t ∧ f.isType = true
  · obtain ⟨f, hft, hf⟩ := hmarked
    exact ⟨f, hft, fun _ _ _ => hf⟩
  · exact ⟨g, hg, fun f hft hf => absurd ⟨f, hft, hf⟩ hmarked⟩

theorem parse_accepts {raw : Text} : (∃ i, parse raw = .ok i) ↔ ∃ f : Form, f.text = Text.strip raw := by
  constructor
  · rintro ⟨i, hi⟩
    obtain ⟨f, hf, -⟩ := parse_eq_ok.1 hi
    exact ⟨f, hf.text_eq⟩
  · rintro ⟨g, hg⟩
    obtain ⟨f, hf⟩ := exists_takes g hg
    exact ⟨f.symbol, parse_eq_ok.2 ⟨f, hf, rfl⟩⟩

theorem parse_rejects {raw : Text} (h : ∀ f : Form, f.text ≠ Text.strip raw) :
    parse raw = .error (.invalidImport raw) := by
  cases hp : parse? raw with
  | none => rw [parse, hp]
  | some i =>
    have hok : parse raw = .ok i := by rw [parse, hp]
    obtain ⟨f, hf⟩ := parse_accepts.1 ⟨i, hok⟩
    exact absurd hf (h f)

/-! ## Reading back -/

/-- a text that is not empty and has no white space in it -/
structure IsWord (t : Text) : Prop where
  ne_nil : t ≠ []
  unspaced : Unspaced t

instance (t : Text) : Decidable (IsWord t) :=
  decidable_of_iff (t ≠ [] ∧ Unspaced t) ⟨fun h => ⟨h.1, h.2⟩, fun h => ⟨h.ne_nil, h.unspaced⟩⟩

theorem IsWord.spaceless {t : Text} (h : IsWord t) : 32 ∉ t :=
  fun hm => absurd (h.unspaced 32 hm) (by decide)

theorem IsWord.one_line {t : Text} (h : IsWord t) : 10 ∉ t :=
  fun hm => absurd (h.unspaced 10 hm) (by decide)

/-- the form in which a symbol is written whose names are words -/
def Form.ofWords (i : Import) (himported : IsWord i.imported) (hused : IsWord i.used) : Form where
  isType := i.isType
  name := i.imported
  used? := if i.used = i.imported then none else some i.used
  name_ne_nil := himported.ne_nil
  spaceless := himported.spaceless
  used_ne_nil t ht := by
    split at ht
    · cases ht
    · rw [← Option.mem_some_iff.1 ht]
      exact hused.ne_nil
  used_one_line t ht := by
    split at ht
    · cases ht
    · rw [← Option.mem_some_iff.1 ht]
      exact hused.one_line

variable {i : Import} (himported : IsWord i.imported) (hused : IsWord i.used)

theorem Form.text_ofWords : (Form.ofWords i himported hused).text = i.text := by
  unfold Form.ofWords Form.text Form.ending Import.text
  by_cases h : i.used = i.imported <;> simp [h]

theorem Form.symbol_ofWords : (Form.ofWords i himported hused).symbol = i := by
  obtain ⟨imported, isType, used⟩ := i
  unfold Form.ofWords Form.symbol
  by_cases h : used = imported <;> simp [h]

/-- a text with a form of both kinds begins with a symbol that is called `type` -/
theorem called_type {f g : Form} (hf : f.isType = false) (hg : g.isType = true) (h : g.text = f.text) :
    f.ending = 32 :: (g.name ++ g.ending) := by
  rw [Form.text_marked hg, Form.text_unmarked hf] at h
  rw [← f.split.2, ← h]
  rfl

/-- no form with the mark has the text of words without it: the second `as` of `type as as` is a word, no mark -/
theorem takes_ofWords : Takes i.text (Form.ofWords i himported hused) := by
  refine ⟨Form.text_ofWords himported hused, fun g hg hmark => ?_⟩
  by_contra hplain
  have hending := called_type (Bool.eq_false_iff.2 hplain) hmark (hg.trans (Form.text_ofWords himported hused).symm)
  by_cases hsame : i.used = i.imported
  · simp [Form.ofWords, Form.ending, hsame] at hending
  · have hrest : g.name ++ g.ending = [97, 115] ++ 32 :: i.used := by
      have hmark : (Form.ofWords i himported hused).ending = 32 :: ([97, 115] ++ 32 :: i.used) := by
        simp [Form.ofWords, Form.ending, hsame]
        rfl
      rw [hmark] at hending
      exact (List.cons.inj hending).2.symm
    have hused' : g.ending = 32 :: i.used := by
      rw [← g.split.2, hrest]
      rfl
    cases hu : g.used? with
    | none => simp [Form.ending, hu] at hused'
    | some r =>
      have hspace : 32 :: ([97, 115, 32] ++ r) = 32 :: i.used := by
        rw [← hused', Form.ending, hu]
        rfl
      refine hused.spaceless ?_
      rw [← (List.cons.inj hspace).2]
      simp

theorem stripped_words {i : Import} (himported : IsWord i.imported) (hused : IsWord i.used) :
    Text.Stripped i.text := by
  have hlast : ∀ {t u : Text}, IsWord u → ∀ c ∈ (t ++ u).getLast?, Text.isBlank c = false := by
    intro t u hu c hc
    rw [List.getLast?_append_of_ne_nil _ hu.ne_nil] at hc
    exact hu.unspaced c (List.mem_of_getLast? hc)
  have hhead : ∀ c ∈ (i.imported ++ if i.used = i.imported then [] else aliasMark ++ i.used).head?,
      Text.isBlank c = false := by
    intro c hc
    rw [List.head?_append_of_ne_nil _ himported.ne_nil] at hc
    exact himported.unspaced c (List.mem_of_head? hc)
  unfold Import.text
  refine ⟨?_, ?_⟩
  · cases i.isType with
    | false => simpa using hhead
    | true =>
      intro c hc
      cases hc
      decide
  · by_cases hsame : i.used = i.imported
    · simpa only [hsame, if_true, List.append_nil] using hlast himported
    · simpa only [hsame, if_false, ← List.append_assoc] using hlast hused

/-- a symbol whose names are words is read back -/
theorem parse_text {i : Import} (himported : IsWord i.imported) (hused : IsWord i.used) : parse i.text = .ok i := by
  refine parse_eq_ok.2 ⟨Form.ofWords i himported hused, ?_, Form.symbol_ofWords himported hused⟩
  rw [Text.strip_of_stripped (stripped_words himported hused)]
  exact takes_ofWords himported hused

/-- the form without the name used -/
def Form.short (f : Form) : Form :=
  { f with used? := none, used_ne_nil := by simp, used_one_line := by simp }

@[simp]
theorem Form.isType_short (f : Form) : f.short.isType = f.isType := rfl

@[simp]
theorem Form.name_short (f : Form) : f.short.name = f.name := rfl

@[simp]
theorem Form.ending_short (f : Form) : f.short.ending = [] := rfl

theorem Form.text_short (f : Form) : f.short.text = (if f.isType then typeMark else []) ++ f.name := by
  unfold Form.text
  rw [f.isType_short, f.name_short, f.ending_short, List.append_nil]

/-- a form whose name used repeats the name may be written without it, and is then taken as well -/
theorem takes_short {f : Form} (hf : f.used? = some f.name) (hstripped : Text.Stripped f.text) :
    Takes f.short.text f.short ∧ Text.Stripped f.short.text := by
  have htext : f.text = f.short.text ++ (aliasMark ++ f.name) := by
    rw [f.text_short, List.append_assoc]
    simp [Form.text, Form.ending, hf]
  refine ⟨⟨rfl, fun g hg hmark => ?_⟩, fun c hc => hstripped.1 c ?_, fun c hc => hstripped.2 c ?_⟩
  · by_contra hplain
    have hending := called_type (Bool.eq_false_iff.2 hplain) hmark hg
    rw [Form.ending_short] at hending
    cases hending
  · rw [htext, List.head?_append_of_ne_nil _ (List.ne_nil_of_mem (List.mem_of_head? hc))]
    exact hc
  · rw [f.text_short, List.getLast?_append_of_ne_nil _ f.name_ne_nil] at hc
    rw [htext, ← List.append_assoc, List.getLast?_append_of_ne_nil _ f.name_ne_nil]
    exact hc

/-- what was read is read back from its own text -/
theorem parse_text_again {raw : Text} {i : Import} (h : parse raw = .ok i) : parse i.text = .ok i := by
  obtain ⟨f, hf, rfl⟩ := parse_eq_ok.1 h
  have hstripped : Text.Stripped f.text := by
    rw [hf.text_eq]
    exact Text.stripped_strip raw
  by_cases hrepeats : f.used? = some f.name
  · obtain ⟨htakes, hshort⟩ := takes_short hrepeats hstripped
    have htext : f.symbol.text = f.short.text := by
      rw [f.text_short]
      simp [Form.symbol, Import.text, hrepeats]
    refine parse_eq_ok.2 ⟨f.short, ?_, by simp [Form.symbol, Form.short, hrepeats]⟩
    rwa [htext, Text.strip_of_stripped hshort]
  · have htext : f.symbol.text = f.text := by
      unfold Form.symbol Import.text Form.text Form.ending
      cases hu : f.used? with
      | none => simp
      | some used =>
        have hne : used ≠ f.name := fun he => hrepeats (by rw [hu, he])
        simp [hne]
    refine parse_eq_ok.2 ⟨f, ?_, rfl⟩
    rw [htext, Text.strip_of_stripped hstripped, hf.text_eq]
    exact hf

/-- **The syntax of imports is read back.** Symbols whose names are words are read from their texts. A text is read
exactly if it has a form, white space at its ends aside, and then as the symbol of the form it takes; any other text is
named in the fault. Whatever is read, its own text means the same. -/
theorem syntax_read_back :
    (∀ i : Import, IsWord i.imported → IsWord i.used → parse i.text = .ok i) ∧
    (∀ raw, (∃ i, parse raw = .ok i) ↔ ∃ f : Form, f.text = Text.strip raw) ∧
    (∀ raw i, parse raw = .ok i ↔ ∃ f : Form, Takes (Text.strip raw) f ∧ f.symbol = i) ∧
    (∀ raw, (∀ f : Form, f.text ≠ Text.strip raw) → parse raw = .error (.invalidImport raw)) ∧
    ∀ raw i, parse raw = .ok i → parse i.text = .ok i :=
  ⟨fun _ himported hused => parse_text himported hused, fun _ => parse_accepts, fun _ _ => parse_eq_ok,
    fun _ => parse_rejects, fun _ _ => parse_text_again⟩

/-- words that look like marks, a space that belongs to the name used, and a text that breaks off -/
theorem marks_read_back :
    (IsWord "type" ∧ IsWord "as" ∧ parse (Import.text ⟨"type", false, "as"⟩) = .ok ⟨"type", false, "as"⟩) ∧
    (parse " type as as  as " = .ok ⟨"as", true, " as"⟩ ∧
      parse (Import.text ⟨"as", true, " as"⟩) = .ok ⟨"as", true, " as"⟩) ∧
    (∀ f : Form, f.text ≠ Text.strip "Vault as ") ∧ parse "Vault as " = .error (.invalidImport "Vault as ") := by
  obtain ⟨hwords, haccepts, -, hrejects, hagain⟩ := syntax_read_back
  have htype : IsWord "type" := by decide
  have has : IsWord "as" := by decide
  have hread : parse " type as as  as " = .ok ⟨"as", true, " as"⟩ := rfl
  have hnone : ∀ f : Form, f.text ≠ Text.strip "Vault as " := by
    intro f hf
    obtain ⟨i, hi⟩ := (haccepts _).2 ⟨f, hf⟩
    cases hi
  exact ⟨⟨htype, has, hwords _ htype has⟩, ⟨hread, hagain _ _ hread⟩, hnone, hrejects _ hnone⟩

/-- the mark of a type is one only if a name follows it -/
example :
    (parse "type", parse "type as as", parse "type as as as") =
      (.ok ⟨"type", false, "type"⟩, .ok ⟨"type", false, "as"⟩, .ok ⟨"as", true, "as"⟩) := rfl

end Import

end InterfacePages
