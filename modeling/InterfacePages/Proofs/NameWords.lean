/-
The words that a name falls into.

A word is not empty, has no separator in it and no ASCII capital behind its first code point (`IsWord`). Such a text is
read as one word, and the next one begins at a separator or at a capital. So words that stand between separators are
found again (`words_joinWith`). In a text without separators the words follow each other, all but the first begin with
capitals, and nothing is lost between them (`words_solid`): words that were strung together without a capital are read
as one.
-/
import InterfacePages.Proofs.NameCharacters
import InterfacePages.Proofs.Texts

namespace InterfacePages

namespace Name

def words (t : Text) : List Text := Text.pieces isSeparator (spaced t)

theorem capitalizedWords_eq (t : Text) : capitalizedWords t = (words t).map capitalized := rfl

theorem capitalized_cons (c : Nat) (rest : Text) : capitalized (c :: rest) = Text.upperOne c ++ Text.lower rest := by
  rw [capitalized, Text.upper, List.flatMap_singleton]

/-- a text that is read as one word -/
structure IsWord (t : Text) : Prop where
  nonempty : t ≠ []
  solid : Solid t
  plain : ∀ c ∈ t.tail, Text.isCapital c = false

/-- a text begins with an ASCII capital -/
def BeginsHigh (t : Text) : Prop := ∃ c rest, t = c :: rest ∧ Text.isCapital c = true

theorem capital_solid {c : Nat} (h : Text.isCapital c = true) : isSeparator c = false := by
  simp only [Text.isCapital, Bool.and_eq_true, decide_eq_true_eq] at h
  exact small_is_solid (by omega) (by omega) (by omega)

/-! ## Reading -/

/-- the words of a name of which the beginning of a word has been read, its last code point first -/
def wordsFrom (read t : Text) : List Text := Text.piecesFrom isSeparator read (spaced t)

/-- what has been read of a word, as a word if it is not empty -/
def readWord (read : Text) : List Text := if read.isEmpty then [] else [read.reverse]

theorem readWord_cons (c : Nat) (read : Text) : readWord (c :: read) = [(c :: read).reverse] := rfl

theorem flatten_readWord (read : Text) : (readWord read).flatten = read.reverse := by
  cases read <;> simp [readWord]

theorem wordsFrom_nil (read : Text) : wordsFrom read [] = readWord read := rfl

theorem wordsFrom_separator {c : Nat} (hc : isSeparator c = true) (read t : Text) :
    wordsFrom read (c :: t) = readWord read ++ wordsFrom [] t := by
  have hcapital : Text.isCapital c = false := eq_false_of_ne_true fun h => by
    rw [capital_solid h] at hc
    cases hc
  rw [wordsFrom, spaced, List.flatMap_cons, hcapital, if_neg Bool.false_ne_true, List.singleton_append,
    Text.piecesFrom, if_pos hc]
  cases read <;> rfl

theorem wordsFrom_capital {c : Nat} (hc : Text.isCapital c = true) (read t : Text) :
    wordsFrom read (c :: t) = readWord read ++ wordsFrom [c] t := by
  have hnext : Text.piecesFrom isSeparator [] (c :: spaced t) = wordsFrom [c] t := by
    rw [Text.piecesFrom, capital_solid hc, if_neg Bool.false_ne_true]
    rfl
  rw [← hnext, wordsFrom, spaced, List.flatMap_cons, hc, if_pos rfl, List.cons_append, List.singleton_append,
    Text.piecesFrom, if_pos (show isSeparator 32 = true by decide)]
  cases read <;> rfl

theorem wordsFrom_plain {c : Nat} (hc : isSeparator c = false) (hcapital : Text.isCapital c = false) (read t : Text) :
    wordsFrom read (c :: t) = wordsFrom (c :: read) t := by
  rw [wordsFrom, spaced, List.flatMap_cons, hcapital, if_neg Bool.false_ne_true, List.singleton_append,
    Text.piecesFrom, hc, if_neg Bool.false_ne_true]
  rfl

/-- what continues a word is read into it -/
theorem wordsFrom_append {t : Text} (ht : Solid t) (hplain : ∀ c ∈ t, Text.isCapital c = false) (read u : Text) :
    wordsFrom read (t ++ u) = wordsFrom (t.reverse ++ read) u := by
  induction t generalizing read with
  | nil => rfl
  | cons c rest ih =>
    have hrest := ih (ht.mono (List.subset_cons_self c rest)) fun d hd => hplain d (List.mem_cons_of_mem _ hd)
    rw [List.cons_append, wordsFrom_plain (ht c List.mem_cons_self) (hplain c List.mem_cons_self), hrest]
    simp

/-- where no word has begun a word is read from its beginning -/
theorem IsWord.wordsFrom {t : Text} (ht : IsWord t) (u : Text) : wordsFrom [] (t ++ u) = wordsFrom t.reverse u := by
  obtain ⟨c, rest, rfl⟩ := List.exists_cons_of_ne_nil ht.nonempty
  have hrest : Name.wordsFrom [c] (rest ++ u) = Name.wordsFrom (c :: rest).reverse u := by
    rw [wordsFrom_append (ht.solid.mono (List.subset_cons_self c rest)) ht.plain, List.reverse_cons]
  rw [← hrest, List.cons_append]
  cases hc : Text.isCapital c with
  | true => exact wordsFrom_capital hc [] _
  | false => exact wordsFrom_plain (ht.solid c List.mem_cons_self) hc [] _

theorem IsWord.readWord {t : Text} (ht : IsWord t) : readWord t.reverse = [t] := by
  have hne : t.reverse.isEmpty = false := List.isEmpty_eq_false_iff.2 (mt List.reverse_eq_nil_iff.1 ht.nonempty)
  rw [Name.readWord, hne, List.reverse_reverse]
  rfl

/-- **Words between separators are found again.** -/
theorem words_joinWith {c : Nat} (hc : isSeparator c = true) {ws : List Text} (h : ∀ w ∈ ws, IsWord w) :
    words (Text.joinWith [c] ws) = ws := by
  induction ws with
  | nil => rfl
  | cons w rest ih =>
    have hw := h w List.mem_cons_self
    by_cases hr : rest = []
    · subst hr
      have hread := hw.wordsFrom []
      rw [List.append_nil, wordsFrom_nil, hw.readWord] at hread
      exact hread
    · rw [Text.joinWith_cons [c] w hr, List.singleton_append]
      change wordsFrom [] (w ++ c :: _) = _
      rw [hw.wordsFrom, wordsFrom_separator hc, hw.readWord, List.singleton_append]
      exact congrArg (w :: ·) (ih fun v hv => h v (List.mem_cons_of_mem _ hv))

/-! ## What is read -/

/-- what has been read is the beginning of a word, or nothing -/
def Begun (read : Text) : Prop := read = [] ∨ IsWord read.reverse

theorem Begun.cons {read : Text} (h : Begun read) {c : Nat} (hc : isSeparator c = false)
    (hcapital : Text.isCapital c = false) : IsWord (c :: read).reverse := by
  rw [List.reverse_cons]
  rcases h with rfl | h
  · exact ⟨List.cons_ne_nil _ _, .singleton hc, fun _ hd => absurd hd List.not_mem_nil⟩
  · refine ⟨List.append_ne_nil_of_left_ne_nil h.nonempty _, h.solid.append (.singleton hc), fun d hd => ?_⟩
    rw [List.tail_append_of_ne_nil h.nonempty] at hd
    rcases List.mem_append.1 hd with hd | hd
    · exact h.plain d hd
    · exact List.mem_singleton.1 hd ▸ hcapital

theorem isWord_capital {c : Nat} (hc : Text.isCapital c = true) : IsWord [c] :=
  ⟨List.cons_ne_nil _ _, .singleton (capital_solid hc), fun _ hd => absurd hd List.not_mem_nil⟩

theorem isWord_readWord {read : Text} (h : Begun read) : ∀ w ∈ readWord read, IsWord w := by
  intro w hw
  rcases h with rfl | h
  · cases hw
  · have hread := h.readWord
    rw [List.reverse_reverse] at hread
    rw [hread] at hw
    exact List.mem_singleton.1 hw ▸ h

theorem isWord_wordsFrom {read t : Text} (h : Begun read) : ∀ w ∈ wordsFrom read t, IsWord w := by
  induction t generalizing read with
  | nil => exact isWord_readWord h
  | cons c rest ih =>
    cases hs : isSeparator c with
    | true =>
      rw [wordsFrom_separator hs]
      exact List.forall_mem_append.2 ⟨isWord_readWord h, ih (.inl rfl)⟩
    | false =>
      cases hc : Text.isCapital c with
      | true =>
        rw [wordsFrom_capital hc]
        exact List.forall_mem_append.2 ⟨isWord_readWord h, ih (.inr (isWord_capital hc))⟩
      | false =>
        rw [wordsFrom_plain hs hc]
        exact ih (.inr (h.cons hs hc))

/-- **The words of a name are words.** -/
theorem isWord_of_mem_words {t w : Text} (h : w ∈ words t) : IsWord w := isWord_wordsFrom (.inl rfl) w h

/-- the words of a name are made of what the name is made of -/
theorem forall_wordsFrom {P : Nat → Prop} {read t : Text} (hread : ∀ c ∈ read, P c) (ht : ∀ c ∈ t, P c) :
    ∀ w ∈ wordsFrom read t, ∀ c ∈ w, P c := by
  have hword : ∀ {read : Text}, (∀ c ∈ read, P c) → ∀ w ∈ readWord read, ∀ c ∈ w, P c := fun hread w hw c hc =>
    hread c (List.mem_reverse.1 (by rw [← flatten_readWord]; exact List.mem_flatten.2 ⟨w, hw, hc⟩))
  induction t generalizing read with
  | nil => exact hword hread
  | cons c rest ih =>
    rw [List.forall_mem_cons] at ht
    cases hs : isSeparator c with
    | true =>
      rw [wordsFrom_separator hs]
      exact List.forall_mem_append.2 ⟨hword hread, ih (fun d hd => absurd hd List.not_mem_nil) ht.2⟩
    | false =>
      cases hc : Text.isCapital c with
      | true =>
        rw [wordsFrom_capital hc]
        exact List.forall_mem_append.2 ⟨hword hread, ih (List.forall_mem_singleton.2 ht.1) ht.2⟩
      | false =>
        rw [wordsFrom_plain hs hc]
        exact ih (List.forall_mem_cons.2 ⟨ht.1, hread⟩) ht.2

theorem forall_words {P : Nat → Prop} {t : Text} (h : ∀ c ∈ t, P c) : ∀ w ∈ words t, ∀ c ∈ w, P c :=
  forall_wordsFrom (fun _ hc => absurd hc List.not_mem_nil) h

theorem flatten_wordsFrom {t : Text} (ht : Solid t) (read : Text) : (wordsFrom read t).flatten = read.reverse ++ t := by
  induction t generalizing read with
  | nil => rw [wordsFrom_nil, flatten_readWord, List.append_nil]
  | cons c rest ih =>
    have hrest := ih (ht.mono (List.subset_cons_self c rest))
    cases hc : Text.isCapital c with
    | true =>
      rw [wordsFrom_capital hc, List.flatten_append, flatten_readWord, hrest]
      rfl
    | false =>
      rw [wordsFrom_plain (ht c List.mem_cons_self) hc, hrest]
      simp

/-- behind what has been read the words of a text without separators begin with capitals -/
theorem raises_wordsFrom {t : Text} (ht : Solid t) {read : Text} (hne : read ≠ []) :
    ∃ u rest, wordsFrom read t = (read.reverse ++ u) :: rest ∧ ∀ w ∈ rest, BeginsHigh w := by
  induction t generalizing read with
  | nil =>
    obtain ⟨c, others, rfl⟩ := List.exists_cons_of_ne_nil hne
    exact ⟨[], [], by rw [wordsFrom_nil, readWord_cons, List.append_nil], fun w hw => absurd hw List.not_mem_nil⟩
  | cons c rest ih =>
    have hrest := ht.mono (List.subset_cons_self c rest)
    cases hc : Text.isCapital c with
    | true =>
      obtain ⟨u, ws, hws, hraise⟩ := ih hrest (List.cons_ne_nil c [])
      obtain ⟨d, others, rfl⟩ := List.exists_cons_of_ne_nil hne
      refine ⟨[], ([c].reverse ++ u) :: ws, ?_, List.forall_mem_cons.2 ⟨⟨c, u, rfl, hc⟩, hraise⟩⟩
      rw [wordsFrom_capital hc, readWord_cons, hws, List.append_nil, List.singleton_append]
    | false =>
      obtain ⟨u, ws, hws, hraise⟩ := ih hrest (List.cons_ne_nil c read)
      refine ⟨c :: u, ws, ?_, hraise⟩
      rw [wordsFrom_plain (ht c List.mem_cons_self) hc, hws]
      simp

/-- **A text without separators falls into words of which all but the first begin with capitals.** -/
theorem words_solid {c : Nat} {t : Text} (ht : Solid (c :: t)) :
    ∃ first rest, words (c :: t) = (c :: first) :: rest ∧ first ++ rest.flatten = t ∧ ∀ w ∈ rest, BeginsHigh w := by
  have hbegin : words (c :: t) = wordsFrom [c] t := by
    cases hc : Text.isCapital c with
    | true => exact wordsFrom_capital hc [] t
    | false => exact wordsFrom_plain (ht c List.mem_cons_self) hc [] t
  have hsolid := ht.mono (List.subset_cons_self c t)
  obtain ⟨first, rest, hws, hraise⟩ := raises_wordsFrom hsolid (List.cons_ne_nil c [])
  have hflat := flatten_wordsFrom hsolid [c]
  rw [hws] at hflat
  exact ⟨first, rest, hbegin.trans hws, (List.cons.inj hflat).2, hraise⟩

end Name

end InterfacePages
