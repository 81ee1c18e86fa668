/-
Reading the lines of a Markdown table back.

A cell is a text with its white space collapsed and a backslash before every bar (`cell_eq`). So in a row the bars with
a backslash before them are those of the cells, and the others stand between them, with a space before each: a cell
that ends with a backslash does not take the bar behind it (`barPieces_row`). A backslash that was there before stays,
since the one to drop is always the last before its bar (`unescaped_escaped`). All line ends are white space, and the
only white space that is left are the spaces between words, so the lines of a table are its rows (`lines_table`).
-/
import InterfacePages.Markdown
import InterfacePages.Proofs.NameCharacters
import InterfacePages.Proofs.Texts

namespace InterfacePages

namespace Text

/-! ## Lines -/

def isLineEnd (c : Nat) : Bool :=
  (decide (10 ≤ c) && decide (c ≤ 13)) || (decide (28 ≤ c) && decide (c ≤ 30)) || c == 0x85 || c == 0x2028 || c == 0x2029

/-- the lines of a text of which some of the first line has been read, last first -/
def linesFrom (read : Text) : Text → List Text
  | [] => if read.isEmpty then [] else [read.reverse]
  | c :: rest => if isLineEnd c then read.reverse :: linesFrom [] rest else linesFrom (c :: read) rest

/-- the lines of a text; a carriage return and the line feed behind it end one line, and a line end at the end of the
text does not begin another one -/
def lines (t : Text) : List Text := linesFrom [] (unixLines t)

/-- no code point of a text ends a line -/
def OneLine (t : Text) : Prop := ∀ c ∈ t, isLineEnd c = false

instance (t : Text) : Decidable (OneLine t) := by unfold OneLine; infer_instance

theorem unixLines_eq_self {t : Text} (h : 13 ∉ t) : unixLines t = t := by
  induction t with
  | nil => rfl
  | cons c rest ih =>
    rw [List.mem_cons, not_or] at h
    rw [unixLines, ih h.2]
    · exact fun _ hc => absurd hc.symm h.1
    · exact fun hc => absurd hc.symm h.1

theorem linesFrom_append {t : Text} (ht : OneLine t) (read u : Text) :
    linesFrom read (t ++ u) = linesFrom (t.reverse ++ read) u := by
  induction t generalizing read with
  | nil => rfl
  | cons c rest ih =>
    rw [OneLine, List.forall_mem_cons] at ht
    rw [List.cons_append, linesFrom, ht.1, if_neg Bool.false_ne_true, ih ht.2]
    simp

/-- **Lines that are put under each other are found again.** -/
theorem lines_joinLines {ls : List Text} (h : ∀ l ∈ ls, l ≠ [] ∧ OneLine l) : lines (joinLines ls) = ls := by
  have hreturn : 13 ∉ joinLines ls := fun hc => by
    rcases mem_joinWith hc with hc | ⟨l, hl, hc⟩
    · exact absurd hc (by decide)
    · exact absurd ((h l hl).2 13 hc) (by decide)
  rw [lines, unixLines_eq_self hreturn]
  clear hreturn
  induction ls with
  | nil => rfl
  | cons l rest ih =>
    rw [List.forall_mem_cons] at h
    have hread : (l.reverse ++ []).isEmpty = false := by simp [h.1.1]
    by_cases hr : rest = []
    · subst hr
      have hlast := linesFrom_append h.1.2 [] []
      rw [List.append_nil, linesFrom, hread, if_neg Bool.false_ne_true] at hlast
      rw [joinLines, joinWith, hlast, List.append_nil, List.reverse_reverse]
    · rw [joinLines, joinWith_cons _ _ hr, linesFrom_append h.1.2]
      change linesFrom _ (10 :: joinLines rest) = _
      rw [linesFrom, if_pos (by decide), ih h.2, List.append_nil, List.reverse_reverse]

/-! ## Words -/

/-- a text with single spaces between its words -/
def collapsed (t : Text) : Text := joinWith " " (words t)

/-- a text neither begins nor ends with white space -/
def Trimmed (t : Text) : Prop := (∀ c ∈ t.head?, isBlank c = false) ∧ ∀ c ∈ t.getLast?, isBlank c = false

theorem ne_nil_of_mem_piecesFrom {separates : Nat → Bool} {word t : Text} :
    ∀ piece ∈ piecesFrom separates word t, piece ≠ [] := by
  induction t generalizing word with
  | nil =>
    unfold piecesFrom
    cases word <;> simp
  | cons c rest ih =>
    unfold piecesFrom
    split
    · split
      · exact ih
      · next hword =>
        refine List.forall_mem_cons.2 ⟨fun hnil => hword ?_, ih⟩
        rw [List.reverse_eq_nil_iff.1 hnil]
        rfl
    · exact ih

theorem unspaced_words {t word : Text} (h : word ∈ words t) : ∀ c ∈ word, isBlank c = false :=
  Name.mem_piecesFrom (fun _ hc => absurd hc List.not_mem_nil) word h

/-- joined texts end as the last of them ends -/
theorem getLast?_joined (separator : Text) {ts : List Text} (hne : ts ≠ []) (h : ∀ t ∈ ts, t ≠ []) :
    ∃ t ∈ ts, (joinWith separator ts).getLast? = t.getLast? := by
  induction ts with
  | nil => exact absurd rfl hne
  | cons t rest ih =>
    by_cases hr : rest = []
    · subst hr
      exact ⟨t, List.mem_cons_self, rfl⟩
    · obtain ⟨u, hu, hlast⟩ := ih hr fun v hv => h v (List.mem_cons_of_mem _ hv)
      have hjoined : (joinWith separator rest).getLast? ≠ none := by
        rw [hlast]
        simp [h u (List.mem_cons_of_mem _ hu)]
      obtain ⟨c, hc⟩ := Option.ne_none_iff_exists'.1 hjoined
      refine ⟨u, List.mem_cons_of_mem _ hu, ?_⟩
      rw [joinWith_cons separator t hr, List.getLast?_append, List.getLast?_append, ← hlast, hc]
      rfl

theorem trimmed_collapsed (t : Text) : Trimmed (collapsed t) := by
  have hne : ∀ word ∈ words t, word ≠ [] := ne_nil_of_mem_piecesFrom
  unfold collapsed
  cases hw : words t with
  | nil => exact ⟨fun _ hc => (nomatch hc), fun _ hc => (nomatch hc)⟩
  | cons word rest =>
    rw [hw] at hne
    refine ⟨fun c hc => ?_, fun c hc => ?_⟩
    · obtain ⟨d, others, rfl⟩ := List.exists_cons_of_ne_nil (hne word List.mem_cons_self)
      rw [head?_joinWith _ rfl] at hc
      exact unspaced_words (hw ▸ List.mem_cons_self) c (Option.some.inj hc ▸ List.mem_cons_self)
    · obtain ⟨last, hlast, heq⟩ := getLast?_joined " " (List.cons_ne_nil word rest) hne
      rw [heq] at hc
      exact unspaced_words (hw ▸ hlast) c (List.mem_of_getLast? hc)

/-- between spaces a text is found again that neither begins nor ends with white space -/
theorem strip_spaced {t : Text} (h : Trimmed t) : strip (32 :: (t ++ [32])) = t := by
  have hspace : isBlank 32 = true := by decide
  cases t with
  | nil => decide
  | cons c rest =>
    have hhead : isBlank c = false := h.1 c rfl
    have hstart : (32 :: (c :: rest ++ [32])).dropWhile isBlank = c :: rest ++ [32] := by
      rw [List.dropWhile_cons_of_pos hspace, List.cons_append, List.dropWhile_cons_of_neg (by simp [hhead])]
    have hend : dropEndWhile isBlank (c :: rest ++ [32]) = dropEndWhile isBlank (c :: rest) := by
      rw [dropEndWhile, List.reverse_append, List.reverse_singleton, List.singleton_append,
        List.dropWhile_cons_of_pos hspace, dropEndWhile]
    have hself : trimBoth isBlank (c :: rest) = c :: rest := trimBoth_eq_self h.1 h.2
    rw [strip, trimBoth, hstart, hend]
    rw [trimBoth, List.dropWhile_cons_of_neg (by simp [hhead])] at hself
    exact hself

end Text

namespace Markdown

open Text (lines isLineEnd OneLine collapsed Trimmed isBlank)

/-! ## Escaping -/

/-- a text with a backslash before every bar -/
def escaped (t : Text) : Text := t.flatMap fun c => if c = 124 then [92, 124] else [c]

/-- a text without the backslashes before bars -/
def unescaped (t : Text) : Text := Text.replaceAll "\\|" "|" t

theorem escaped_append (t u : Text) : escaped (t ++ u) = escaped t ++ escaped u := List.flatMap_append

theorem escaped_bar (t : Text) : escaped (124 :: t) = 92 :: 124 :: escaped t := rfl

theorem escaped_cons {c : Nat} (hc : c ≠ 124) (t : Text) : escaped (c :: t) = c :: escaped t := by
  rw [escaped, List.flatMap_cons, if_neg hc]
  rfl

theorem replaceAll_bars (t : Text) : Text.replaceAll "|" "\\|" t = escaped t := by
  change Text.replaceFrom [124] [92, 124] 0 t = escaped t
  induction t with
  | nil => rfl
  | cons c rest ih =>
    by_cases hc : c = 124
    · subst hc
      change 92 :: 124 :: Text.replaceFrom [124] [92, 124] 0 rest = _
      rw [ih, escaped_bar]
    · have hstart : Text.startsWith [124] (c :: rest) = false := by
        rw [Text.startsWith, Text.after?, if_neg (Ne.symm hc)]
        rfl
      rw [Text.replaceFrom, hstart, if_neg Bool.false_ne_true, escaped_cons hc, ih]

/-- what is escaped does not begin with a bar -/
theorem startsWith_escaped {c : Nat} (hc : c ≠ 124) (t : Text) : Text.startsWith [92, 124] (c :: escaped t) = false := by
  by_cases hback : c = 92
  · subst hback
    cases t with
    | nil => rfl
    | cons d rest =>
      by_cases hd : d = 124
      · subst hd
        rfl
      · rw [escaped_cons hd, Text.startsWith, Text.after?, if_pos rfl, Text.after?, if_neg (Ne.symm hd)]
        rfl
  · rw [Text.startsWith, Text.after?, if_neg (Ne.symm hback)]
    rfl

/-- **A text is found again behind its backslashes.** -/
theorem unescaped_escaped (t : Text) : unescaped (escaped t) = t := by
  change Text.replaceFrom [92, 124] [124] 0 (escaped t) = t
  induction t with
  | nil => rfl
  | cons c rest ih =>
    by_cases hc : c = 124
    · subst hc
      change 124 :: Text.replaceFrom [92, 124] [124] 0 (escaped rest) = _
      rw [ih]
    · rw [escaped_cons hc, Text.replaceFrom, startsWith_escaped hc, if_neg Bool.false_ne_true, ih]

theorem isEmpty_escaped (t : Text) : (escaped t).isEmpty = t.isEmpty := by
  cases t with
  | nil => rfl
  | cons c rest =>
    by_cases hc : c = 124
    · rw [hc, escaped_bar]
      rfl
    · rw [escaped_cons hc]
      rfl

/-- what has been read of a word is escaped with it -/
theorem piecesFrom_escaped (read t : Text) :
    Text.piecesFrom isBlank (escaped read.reverse).reverse (escaped t) = (Text.piecesFrom isBlank read t).map escaped := by
  have hempty : ∀ read : Text, (escaped read.reverse).reverse.isEmpty = read.isEmpty := fun read => by
    rw [List.isEmpty_reverse, isEmpty_escaped, List.isEmpty_reverse]
  have hread : ∀ (c : Nat) (read : Text), escaped (c :: read).reverse = escaped read.reverse ++ escaped [c] :=
    fun c read => by rw [List.reverse_cons, escaped_append]
  induction t generalizing read with
  | nil =>
    change (if _ then _ else _) = List.map escaped (if _ then _ else _)
    rw [hempty, List.reverse_reverse]
    split <;> rfl
  | cons c rest ih =>
    have hnone := ih []
    have hnext := ih (c :: read)
    rw [hread, List.reverse_append] at hnext
    by_cases hc : c = 124
    · subst hc
      rw [escaped_bar]
      exact hnext
    · rw [escaped_cons hc, Text.piecesFrom, Text.piecesFrom, hempty, List.reverse_reverse]
      rw [escaped_cons hc] at hnext
      split
      · split
        · exact hnone
        · exact congrArg (escaped read.reverse :: ·) hnone
      · exact hnext

theorem joinWith_escaped (ts : List Text) : Text.joinWith " " (ts.map escaped) = escaped (Text.joinWith " " ts) := by
  induction ts with
  | nil => rfl
  | cons t rest ih =>
    by_cases hr : rest = []
    · subst hr
      rfl
    · rw [List.map_cons, Text.joinWith_cons _ _ hr, Text.joinWith_cons _ _ (mt List.map_eq_nil_iff.1 hr), ih,
        escaped_append, escaped_append]
      rfl

/-- **A cell is a text with its white space collapsed and a backslash before every bar.** -/
theorem cell_eq (t : Text) : cell t = escaped (collapsed t) := by
  rw [cell, replaceAll_bars, collapsed, ← joinWith_escaped]
  exact congrArg _ (piecesFrom_escaped [] t)

/-! ## Rows -/

theorem trimmed_escaped {t : Text} (h : Trimmed t) : Trimmed (escaped t) := by
  refine ⟨fun c hc => ?_, fun c hc => ?_⟩
  · cases t with
    | nil => cases hc
    | cons d rest =>
      by_cases hd : d = 124
      · subst hd
        rw [escaped_bar] at hc
        cases hc
        decide
      · rw [escaped_cons hd] at hc
        exact h.1 c hc
  · rcases List.eq_nil_or_concat' t with rfl | ⟨before, d, rfl⟩
    · cases hc
    · have hlast := h.2 d (by simp)
      rw [escaped_append, List.getLast?_append] at hc
      by_cases hd : d = 124
      · subst hd
        cases hc
        decide
      · rw [escaped_cons hd] at hc
        cases hc
        exact hlast

theorem mem_cell {t : Text} {c : Nat} (h : c ∈ cell t) : isBlank c = false ∨ c = 32 := by
  rcases Text.mem_joinWith h with h | ⟨word, hw, h⟩
  · exact .inr (List.mem_singleton.1 h)
  · exact .inl (Text.unspaced_words hw c h)

theorem oneLine_row (cs : List Text) : OneLine (row cs) := by
  have hplain : ∀ c, isBlank c = false ∨ c = 32 → isLineEnd c = false := by
    intro c hc
    simp only [isLineEnd, isBlank, Bool.or_eq_false_iff, Bool.and_eq_false_iff, decide_eq_false_iff_not,
      beq_eq_false_iff_ne] at hc ⊢
    omega
  intro c hc
  rcases List.mem_append.1 hc with hc | hc
  · rcases List.mem_append.1 hc with hc | hc
    · exact (by decide : OneLine ("| " : Text)) c hc
    · rcases Text.mem_joinWith hc with hc | ⟨t, ht, hc⟩
      · exact (by decide : OneLine (" | " : Text)) c hc
      · obtain ⟨u, -, rfl⟩ := List.mem_map.1 ht
        exact hplain c (mem_cell hc)
  · exact (by decide : OneLine (" |" : Text)) c hc

/-- the pieces of a line between the bars that no backslash stands before; `read` is what has been read of a piece, last
first -/
def barPieces (read : Text) : Text → List Text
  | [] => [read.reverse]
  | c :: rest =>
    if c = 124 ∧ read.head? ≠ some 92 then read.reverse :: barPieces [] rest else barPieces (c :: read) rest

/-- the cells of a row as they are read: what stands between its outer bars, stripped and without backslashes before
bars -/
def cells (line : Text) : List Text := (barPieces [] line).tail.dropLast.map fun piece => unescaped (Text.strip piece)

/-- what is escaped is read into a piece -/
theorem barPieces_escaped (t read u : Text) :
    barPieces read (escaped t ++ u) = barPieces ((escaped t).reverse ++ read) u := by
  induction t generalizing read with
  | nil => rfl
  | cons c rest ih =>
    by_cases hc : c = 124
    · subst hc
      rw [escaped_bar, List.cons_append, List.cons_append, barPieces, if_neg (by simp), barPieces, if_neg (by simp), ih]
      simp
    · rw [escaped_cons hc, List.cons_append, barPieces, if_neg (by simp [hc]), ih]
      simp

theorem barPieces_between (t u : Text) :
    barPieces [] (32 :: (escaped t ++ 32 :: 124 :: u)) = (32 :: (escaped t ++ [32])) :: barPieces [] u := by
  rw [barPieces, if_neg (by decide), barPieces_escaped, barPieces, if_neg (by simp), barPieces, if_pos (by simp)]
  simp

/-- **The bars of a row that no backslash stands before are those between its cells.** -/
theorem barPieces_row {ts : List Text} (hne : ts ≠ []) :
    barPieces [] (row ts) = [] :: (ts.map fun t => 32 :: (cell t ++ [32])) ++ [[]] := by
  have hbegin : barPieces [] (row ts) = [] :: barPieces [] (32 :: (Text.joinWith " | " (ts.map cell) ++ [32, 124])) := by
    rw [row]
    change barPieces [] (124 :: _) = _
    rw [barPieces, if_pos (by decide)]
    rfl
  rw [hbegin, List.cons_append]
  refine congrArg _ ?_
  clear hbegin
  induction ts with
  | nil => exact absurd rfl hne
  | cons t rest ih =>
    by_cases hr : rest = []
    · subst hr
      change barPieces [] (32 :: (cell t ++ [32, 124])) = _
      rw [cell_eq, barPieces_between, List.map_singleton, cell_eq]
      rfl
    · have hrest : rest.map cell ≠ [] := mt List.map_eq_nil_iff.1 hr
      rw [List.map_cons, Text.joinWith_cons _ _ hrest, List.append_assoc, List.append_assoc]
      change barPieces [] (32 :: (cell t ++ 32 :: 124 :: 32 :: (Text.joinWith " | " (rest.map cell) ++ [32, 124]))) = _
      rw [cell_eq, barPieces_between, ih hr, List.map_cons, cell_eq]
      rfl

/-- **The cells of a row are found again, with their white space collapsed.** -/
theorem cells_row {ts : List Text} (hne : ts ≠ []) : cells (row ts) = ts.map collapsed := by
  rw [cells, barPieces_row hne, List.cons_append, List.tail_cons, List.dropLast_concat, List.map_map]
  refine List.map_congr_left fun t _ => ?_
  change unescaped (Text.strip (32 :: (cell t ++ [32]))) = collapsed t
  rw [cell_eq, Text.strip_spaced (trimmed_escaped (Text.trimmed_collapsed t)), unescaped_escaped]

/-! ## Tables -/

theorem row_ne_nil (ts : List Text) : row ts ≠ [] := by
  rw [row]
  exact List.append_ne_nil_of_left_ne_nil (List.append_ne_nil_of_left_ne_nil (by decide) _) _

/-- **The lines of a table are its rows.** -/
theorem lines_table (headings : List Text) (rows : List (List Text)) :
    lines (table headings rows) = (headings :: headings.map (fun _ => ("---" : Text)) :: rows).map row := by
  refine Text.lines_joinLines fun l hl => ?_
  obtain ⟨ts, -, rfl⟩ := List.mem_map.1 hl
  exact ⟨row_ne_nil ts, oneLine_row ts⟩

/-- **The rows of a table are found again, with the white space of their cells collapsed.** -/
theorem cells_table {headings : List Text} (hh : headings ≠ []) {rows : List (List Text)} (hr : ∀ ts ∈ rows, ts ≠ []) :
    (lines (table headings rows)).map cells =
      headings.map collapsed :: headings.map (fun _ => ("---" : Text)) :: rows.map (List.map collapsed) := by
  have hrule : collapsed "---" = "---" := by decide
  have hmarks : headings.map (fun _ => ("---" : Text)) ≠ [] := mt List.map_eq_nil_iff.1 hh
  rw [lines_table, List.map_cons, List.map_cons, List.map_cons, List.map_cons, cells_row hh, cells_row hmarks,
    List.map_map, List.map_map]
  refine congrArg _ (congrArg₂ _ ?_ (List.map_congr_left fun ts hts => cells_row (hr ts hts)))
  exact List.map_congr_left fun _ _ => hrule

end Markdown

end InterfacePages
