/-
Texts and lists of them: sorting and dropping copies keep what is there, trimming keeps what neither begins nor ends
with what is trimmed, splitting finds no separator in a piece and takes apart what was joined.
-/
import Mathlib.Data.List.Basic
import Mathlib.Data.List.DropRight
import InterfacePages.Text.Basic

namespace InterfacePages

namespace Text

/-! ## Lists of texts -/

theorem insertSorted_perm (t : Text) (ts : List Text) : (insertSorted t ts).Perm (t :: ts) := by
  induction ts with
  | nil => exact List.Perm.refl _
  | cons u us ih =>
    unfold insertSorted
    split
    · exact List.Perm.refl _
    · exact (ih.cons u).trans (List.Perm.swap t u us)

theorem sorted_perm (ts : List Text) : (sorted ts).Perm ts := by
  induction ts with
  | nil => exact List.Perm.refl _
  | cons t ts ih => exact (insertSorted_perm t (sorted ts)).trans (ih.cons t)

@[simp]
theorem mem_sorted {t : Text} {ts : List Text} : t ∈ sorted ts ↔ t ∈ ts := (sorted_perm ts).mem_iff

@[simp]
theorem mem_distinct {t : Text} {ts : List Text} : t ∈ distinct ts ↔ t ∈ ts := by
  induction ts with
  | nil => exact Iff.rfl
  | cons u us ih =>
    by_cases h : t = u
    · simp [distinct, h]
    · simp [distinct, h, ih]

theorem nodup_distinct (ts : List Text) : (distinct ts).Nodup := by
  induction ts with
  | nil => exact List.nodup_nil
  | cons t ts ih =>
    refine List.nodup_cons.2 ⟨fun h => ?_, ih.sublist List.filter_sublist⟩
    simpa using (List.mem_filter.1 h).2

/-- texts are put in a row unless they were there before -/
theorem distinct_append (ts us : List Text) :
    distinct (ts ++ us) = distinct ts ++ (distinct us).filter fun t => decide (t ∉ ts) := by
  induction ts with
  | nil => simp [distinct]
  | cons t ts ih =>
    rw [List.cons_append, distinct, ih, List.filter_append, List.filter_filter, distinct, List.cons_append]
    congr 2
    refine List.filter_congr fun u _ => ?_
    rw [Bool.eq_iff_iff]
    simp

theorem distinct_of_nodup {ts : List Text} (h : ts.Nodup) : distinct ts = ts := by
  induction ts with
  | nil => rfl
  | cons t ts ih =>
    rw [List.nodup_cons] at h
    rw [distinct, ih h.2, List.filter_eq_self.2]
    intro u hu
    simpa using fun he : u = t => h.1 (he ▸ hu)

/-- copies may be dropped group by group first -/
theorem distinct_flatMap_distinct {α : Type} (group : α → List Text) (xs : List α) :
    distinct (xs.flatMap fun x => distinct (group x)) = distinct (xs.flatMap group) := by
  induction xs with
  | nil => rfl
  | cons x rest ih =>
    rw [List.flatMap_cons, List.flatMap_cons, distinct_append, distinct_append, ih,
      distinct_of_nodup (nodup_distinct _)]
    simp only [mem_distinct]

theorem insertSorted_pairwise (t : Text) {ts : List Text} (h : ts.Pairwise fun a b => le a b = true) :
    (insertSorted t ts).Pairwise fun a b => le a b = true := by
  induction ts with
  | nil => exact List.pairwise_singleton _ _
  | cons u us ih =>
    rw [List.pairwise_cons] at h
    unfold insertSorted
    split
    · next htu =>
      refine List.pairwise_cons.2 ⟨fun b hb => ?_, List.pairwise_cons.2 h⟩
      rcases List.mem_cons.1 hb with rfl | hb
      · exact htu
      · exact le_trans t u b htu (h.1 b hb)
    · next htu =>
      have hut : le u t = true := by simpa [htu] using le_total t u
      refine List.pairwise_cons.2 ⟨fun b hb => ?_, ih h.2⟩
      rcases List.mem_cons.1 ((insertSorted_perm t us).mem_iff.1 hb) with rfl | hb
      · exact hut
      · exact h.1 b hb

theorem sorted_pairwise (ts : List Text) : (sorted ts).Pairwise fun a b => le a b = true := by
  induction ts with
  | nil => exact .nil
  | cons t ts ih => exact insertSorted_pairwise t ih

/-- sorted texts without copies increase strictly -/
theorem sorted_increasing {ts : List Text} (h : ts.Nodup) : (sorted ts).Pairwise fun a b => lt a b = true := by
  refine ((sorted_pairwise _).and ((sorted_perm ts).nodup_iff.2 h)).imp fun h => ?_
  simp only [lt, Bool.and_eq_true, bne_iff_ne]
  exact h

theorem sorted_distinct_increasing (ts : List Text) : (sorted (distinct ts)).Pairwise fun a b => lt a b = true :=
  sorted_increasing (nodup_distinct ts)

/-- there is one way to sort texts -/
theorem eq_of_perm_pairwise {ts us : List Text} (h : ts.Perm us) (hts : ts.Pairwise fun a b => le a b = true)
    (hus : us.Pairwise fun a b => le a b = true) : ts = us :=
  h.eq_of_pairwise (fun a b _ _ => le_antisymm a b) hts hus

/-- sorted and without copies, texts are the same in whatever order and however often they were given -/
theorem sorted_distinct_congr {ts us : List Text} (h : ∀ t, t ∈ ts ↔ t ∈ us) :
    sorted (distinct ts) = sorted (distinct us) := by
  have hperm : (distinct ts).Perm (distinct us) := by
    refine (List.perm_ext_iff_of_nodup (nodup_distinct ts) (nodup_distinct us)).2 fun t => ?_
    rw [mem_distinct, mem_distinct, h]
  exact eq_of_perm_pairwise ((sorted_perm _).trans (hperm.trans (sorted_perm _).symm)) (sorted_pairwise _)
    (sorted_pairwise _)

/-- what sorted texts give depends only on the texts that give something -/
theorem filterMap_sorted_congr {α : Type} {f : Text → Option α} {ts us : List Text} (hts : ts.Nodup) (hus : us.Nodup)
    (h : ∀ t v, f t = some v → (t ∈ ts ↔ t ∈ us)) : (sorted ts).filterMap f = (sorted us).filterMap f := by
  have hgiving : ∀ ts : List Text, ts.filterMap f = (ts.filter fun t => (f t).isSome).filterMap f := by
    intro ts
    rw [List.filterMap_filter]
    refine List.filterMap_congr fun t _ => ?_
    cases f t <;> rfl
  have hperm : ((sorted ts).filter fun t => (f t).isSome).Perm ((sorted us).filter fun t => (f t).isSome) := by
    have hnodup : ∀ {ts : List Text}, ts.Nodup → ((sorted ts).filter fun t => (f t).isSome).Nodup := fun hd =>
      ((sorted_perm _).nodup_iff.2 hd).filter _
    refine (List.perm_ext_iff_of_nodup (hnodup hts) (hnodup hus)).2 fun t => ?_
    rw [List.mem_filter, List.mem_filter, mem_sorted, mem_sorted]
    exact and_congr_left fun ht => (Option.isSome_iff_exists.1 ht).elim (h t)
  rw [hgiving, eq_of_perm_pairwise hperm ((sorted_pairwise ts).filter _) ((sorted_pairwise us).filter _), ← hgiving]

/-! ## Joining -/

theorem joinWith_cons (separator piece : Text) {pieces : List Text} (h : pieces ≠ []) :
    joinWith separator (piece :: pieces) = piece ++ (separator ++ joinWith separator pieces) := by
  cases pieces with
  | nil => exact absurd rfl h
  | cons _ _ => rfl

theorem joinWith_ne_nil (separator : Text) {t : Text} (ht : t ≠ []) (ts : List Text) :
    joinWith separator (t :: ts) ≠ [] := by
  cases ts with
  | nil => exact ht
  | cons u us => exact List.append_ne_nil_of_left_ne_nil ht _

theorem joinWith_append (separator : Text) {a b : List Text} (ha : a ≠ []) (hb : b ≠ []) :
    joinWith separator (a ++ b) = joinWith separator a ++ (separator ++ joinWith separator b) := by
  induction a with
  | nil => exact absurd rfl ha
  | cons piece rest ih =>
    by_cases hr : rest = []
    · subst hr
      exact joinWith_cons separator piece hb
    · rw [List.cons_append, joinWith_cons _ _ (List.append_ne_nil_of_left_ne_nil hr _), joinWith_cons _ _ hr, ih hr]
      simp only [List.append_assoc]

theorem infix_joinWith (separator : Text) {pieces : List Text} {piece : Text} (h : piece ∈ pieces) :
    piece <:+: joinWith separator pieces := by
  induction pieces with
  | nil => exact absurd h List.not_mem_nil
  | cons first rest ih =>
    by_cases hr : rest = []
    · subst hr
      rw [List.mem_singleton.1 h]
      exact List.infix_refl first
    · rw [joinWith_cons separator first hr]
      rcases List.mem_cons.1 h with rfl | h
      · exact (List.prefix_append _ _).isInfix
      · exact (ih h).trans ((List.suffix_append _ _).trans (List.suffix_append _ _)).isInfix

theorem mem_joinWith {separator : Text} {pieces : List Text} {c : Nat} (h : c ∈ joinWith separator pieces) :
    c ∈ separator ∨ ∃ piece ∈ pieces, c ∈ piece := by
  induction pieces with
  | nil => exact absurd h List.not_mem_nil
  | cons first rest ih =>
    by_cases hr : rest = []
    · subst hr
      exact .inr ⟨first, List.mem_cons_self, h⟩
    · rw [joinWith_cons separator first hr, List.mem_append, List.mem_append] at h
      rcases h with h | h | h
      · exact .inr ⟨first, List.mem_cons_self, h⟩
      · exact .inl h
      · exact (ih h).imp_right fun ⟨piece, hp, hc⟩ => ⟨piece, List.mem_cons_of_mem _ hp, hc⟩

/-- joining in two steps, when both have pieces on the same sides -/
theorem joinWith_append_congr (separator : Text) {a b a' b' : List Text} (ha : a = [] ↔ a' = []) (hb : b = [] ↔ b' = [])
    (h : joinWith separator a = joinWith separator a') (h' : joinWith separator b = joinWith separator b') :
    joinWith separator (a ++ b) = joinWith separator (a' ++ b') := by
  by_cases hae : a = []
  · rw [hae, ha.1 hae, List.nil_append, List.nil_append, h']
  · by_cases hbe : b = []
    · rw [hbe, hb.1 hbe, List.append_nil, List.append_nil, h]
    · rw [joinWith_append _ hae hbe, joinWith_append _ (fun e => hae (ha.2 e)) fun e => hbe (hb.2 e), h, h']

/-! ## Beginnings -/

theorem after?_append (lead t : Text) : after? lead (lead ++ t) = some t := by
  induction lead with
  | nil => rfl
  | cons c rest ih => rw [List.cons_append, after?, if_pos rfl, ih]

theorem eq_of_after? {lead t rest : Text} (h : after? lead t = some rest) : t = lead ++ rest := by
  induction lead generalizing t with
  | nil => exact Option.some.inj h
  | cons c lead ih =>
    cases t with
    | nil => cases h
    | cons d t =>
      unfold after? at h
      split at h
      · next hc => rw [ih h, hc, List.cons_append]
      · cases h

/-! ## Ends -/

/-- a text that neither begins nor ends with a code point of a class is trimmed of nothing -/
theorem trimBoth_eq_self {p : Nat → Bool} {t : Text} (hhead : ∀ c ∈ t.head?, p c = false)
    (hlast : ∀ c ∈ t.getLast?, p c = false) : trimBoth p t = t := by
  have hstart : t.dropWhile p = t := by
    cases t with
    | nil => rfl
    | cons c u => exact List.dropWhile_cons_of_neg (by simp [hhead c rfl])
  have hend : t.rdropWhile p = t := List.rdropWhile_eq_self_iff.2 fun hne => by
    rw [hlast _ (List.getLast_mem_getLast? hne)]
    exact Bool.false_ne_true
  rw [trimBoth, hstart]
  exact hend

/-- what begins with a code point out of a class stays when code points of the class are dropped before it -/
theorem dropWhile_keeps {p : Nat → Bool} {u : Text} {c : Nat} (hc : p c = false) (hu : u.head? = some c) (a b : Text) :
    ∃ a', (a ++ (u ++ b)).dropWhile p = a' ++ (u ++ b) := by
  obtain ⟨v, rfl⟩ := List.head?_eq_some_iff.1 hu
  induction a with
  | nil => exact ⟨[], List.dropWhile_cons_of_neg (by simp [hc])⟩
  | cons d rest ih =>
    cases hd : p d with
    | true =>
      rw [List.cons_append, List.dropWhile_cons_of_pos hd]
      exact ih
    | false => exact ⟨d :: rest, List.dropWhile_cons_of_neg (by simp [hd])⟩

/-- what neither begins nor ends with a code point of a class stays when a text around it is trimmed -/
theorem infix_trimBoth {p : Nat → Bool} {t u : Text} (h : u <:+: t) {c d : Nat} (hhead : u.head? = some c)
    (hc : p c = false) (hlast : u.getLast? = some d) (hd : p d = false) : u <:+: trimBoth p t := by
  obtain ⟨a, b, rfl⟩ := h
  obtain ⟨a', ha⟩ := dropWhile_keeps hc hhead a b
  obtain ⟨b', hb⟩ := dropWhile_keeps hd (List.head?_reverse.trans hlast) b.reverse a'.reverse
  refine ⟨a', b'.reverse, ?_⟩
  rw [trimBoth, List.append_assoc a u b, ha, dropEndWhile, List.reverse_append, List.reverse_append,
    List.append_assoc b.reverse, hb]
  simp

theorem head?_joinWith (separator : Text) {t : Text} {c : Nat} (h : t.head? = some c) (ts : List Text) :
    (joinWith separator (t :: ts)).head? = some c := by
  cases ts with
  | nil => exact h
  | cons u us =>
    have hne : t ≠ [] := fun he => by
      rw [he] at h
      cases h
    exact (List.head?_append_of_ne_nil t hne).trans h

theorem getLast?_joinWith (separator : Text) {ts : List Text} {c : Nat} (hne : ts ≠ [])
    (h : ∀ t ∈ ts, t.getLast? = some c) : (joinWith separator ts).getLast? = some c := by
  induction ts with
  | nil => exact absurd rfl hne
  | cons t rest ih =>
    by_cases hr : rest = []
    · subst hr
      exact h t List.mem_cons_self
    · have hlast := ih hr fun u hu => h u (List.mem_cons_of_mem _ hu)
      rw [joinWith_cons separator t hr, List.getLast?_append, List.getLast?_append, hlast]
      rfl

/-! ## Splitting -/

theorem cut?_eq_some {separator : Nat} {t before after : Text} :
    cut? separator t = some (before, after) ↔ t = before ++ separator :: after ∧ separator ∉ before := by
  induction t generalizing before with
  | nil => simp [cut?]
  | cons c rest ih =>
    rw [cut?]
    by_cases hc : c = separator
    · rw [if_pos hc]
      cases before with
      | nil => simp [hc, eq_comm]
      | cons b before =>
        simp only [hc, Option.some.injEq, Prod.mk.injEq, reduceCtorEq, false_and, List.cons_append, List.cons.injEq,
          List.mem_cons, not_or, false_iff]
        exact fun ⟨⟨hb, _⟩, hne, _⟩ => hne hb
    · rw [if_neg hc]
      cases before with
      | nil => simp [hc]
      | cons b before =>
        simp only [Option.map_eq_some_iff, Prod.exists, Prod.mk.injEq, List.cons.injEq, List.cons_append,
          List.mem_cons, not_or]
        constructor
        · rintro ⟨_, _, hcut, ⟨rfl, rfl⟩, rfl⟩
          obtain ⟨rfl, hbefore⟩ := ih.1 hcut
          exact ⟨⟨rfl, rfl⟩, Ne.symm hc, hbefore⟩
        · rintro ⟨⟨rfl, rfl⟩, _, hbefore⟩
          exact ⟨before, after, ih.2 ⟨rfl, hbefore⟩, ⟨rfl, rfl⟩, rfl⟩

theorem splitOn_ne_nil (c : Nat) (t : Text) : splitOn c t ≠ [] := by
  cases t with
  | nil => exact List.cons_ne_nil _ _
  | cons d rest =>
    unfold splitOn
    split
    · exact List.cons_ne_nil _ _
    · split
      · exact List.cons_ne_nil _ _
      · exact List.cons_ne_nil _ _

theorem splitOn_append_cons (c : Nat) (t u : Text) : splitOn c (t ++ c :: u) = splitOn c t ++ splitOn c u := by
  induction t with
  | nil => simp [splitOn]
  | cons d rest ih =>
    by_cases h : d = c
    · simp [splitOn, h, ih]
    · simp only [List.cons_append, splitOn, h, if_false, ih]
      cases hs : splitOn c rest with
      | nil => exact absurd hs (splitOn_ne_nil c rest)
      | cons piece pieces => rfl

/-- an ending without a separator goes to the last piece -/
theorem splitOn_append (c : Nat) (t : Text) : ∃ pieces last, splitOn c t = pieces ++ [last] ∧
    ∀ u, c ∉ u → splitOn c (t ++ u) = pieces ++ [last ++ u] := by
  induction t with
  | nil =>
    refine ⟨[], [], rfl, fun u hu => ?_⟩
    induction u with
    | nil => rfl
    | cons d rest ih =>
      rw [List.mem_cons, not_or] at hu
      have hrest := ih hu.2
      simp only [List.nil_append] at hrest ⊢
      rw [splitOn, if_neg (Ne.symm hu.1), hrest]
  | cons d rest ih =>
    obtain ⟨pieces, last, hs, happ⟩ := ih
    by_cases h : d = c
    · refine ⟨[] :: pieces, last, by simp [splitOn, h, hs], fun u hu => ?_⟩
      simp [splitOn, h, happ u hu]
    · cases pieces with
      | nil =>
        refine ⟨[], d :: last, by simp [splitOn, h, hs], fun u hu => ?_⟩
        simp [splitOn, h, happ u hu]
      | cons first others =>
        refine ⟨(d :: first) :: others, last, by simp [splitOn, h, hs], fun u hu => ?_⟩
        simp [splitOn, h, happ u hu]

theorem splitOn_of_not_mem {c : Nat} {t : Text} (h : c ∉ t) : splitOn c t = [t] := by
  induction t with
  | nil => rfl
  | cons d rest ih =>
    rw [List.mem_cons, not_or] at h
    rw [splitOn, if_neg (Ne.symm h.1), ih h.2]

theorem splitOn_joinWith {c : Nat} {pieces : List Text} (hne : pieces ≠ []) (h : ∀ piece ∈ pieces, c ∉ piece) :
    splitOn c (joinWith [c] pieces) = pieces := by
  induction pieces with
  | nil => exact absurd rfl hne
  | cons piece rest ih =>
    rw [List.forall_mem_cons] at h
    by_cases hr : rest = []
    · subst hr
      exact splitOn_of_not_mem h.1
    · rw [joinWith_cons [c] piece hr, List.singleton_append, splitOn_append_cons, splitOn_of_not_mem h.1, ih hr h.2,
        List.singleton_append]

theorem not_mem_of_splitOn {c : Nat} {t piece : Text} (h : piece ∈ splitOn c t) : c ∉ piece := by
  induction t generalizing piece with
  | nil =>
    rw [List.mem_singleton.1 h]
    exact List.not_mem_nil
  | cons d rest ih =>
    rw [splitOn] at h
    split at h
    · rcases List.mem_cons.1 h with rfl | h
      · exact List.not_mem_nil
      · exact ih h
    · next hd =>
      split at h
      · next hs => exact absurd hs (splitOn_ne_nil c rest)
      · next first others hs =>
        rw [hs] at ih
        rcases List.mem_cons.1 h with rfl | h
        · simp [Ne.symm hd, ih List.mem_cons_self]
        · exact ih (List.mem_cons_of_mem first h)

theorem mem_of_splitOn {c : Nat} {t piece : Text} (h : piece ∈ splitOn c t) : piece ⊆ t := by
  induction t generalizing piece with
  | nil => rw [List.mem_singleton.1 h]; exact List.nil_subset _
  | cons d rest ih =>
    unfold splitOn at h
    split at h
    · rcases List.mem_cons.1 h with rfl | h
      · exact List.nil_subset _
      · exact List.Subset.trans (ih h) (List.subset_cons_self d rest)
    · split at h
      · next hs => exact absurd hs (splitOn_ne_nil c rest)
      · next first others hs =>
        rw [hs] at ih
        rcases List.mem_cons.1 h with rfl | h
        · exact List.cons_subset_cons d (ih List.mem_cons_self)
        · exact List.Subset.trans (ih (List.mem_cons_of_mem _ h)) (List.subset_cons_self d rest)

end Text

end InterfacePages
