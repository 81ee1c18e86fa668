/-
How templates are filled in.

A template is read once, piece by piece: code points that stand for themselves, doubled dollars, and places for parts
with or without braces (`Reads`). Parts that are put in are not read, so what they contain has no meaning. Reading ends
at the end of the template or at a dollar that opens nothing (`exists_reads`), and the first thing that fails counts: a
key without a part, or the dollar if every key before it has one (`fillFrom_reads`, `compose_stops`).

Literal texts whose dollars are doubled and keys in braces are read as they were meant (`reads_written`), so a template
that is written from them comes to their texts and the parts of the keys, one after the other.

Case does not count among the letters of keys. So besides the ASCII letters the four letters that differ from one of
them by case alone may stand in a key, and a dollar before one of them opens a place.
-/
import Mathlib.Data.List.Nodup
import Mathlib.Data.List.TakeWhile
import InterfacePages.Fragment.Template
import InterfacePages.Proofs.OrderedMaps

namespace InterfacePages

namespace Template

/-! ## Pieces -/

/-- a key: letters, digits and underscores, at least one -/
structure Key where
  name : Text
  name_ne_nil : name ≠ []
  letters : ∀ c ∈ name, isKeyLetter c = true

/-- what a template is made of: code points that stand for themselves, and places for parts -/
inductive Piece where
  | point (c : Nat)
  | place (key : Key)

def Piece.name? : Piece → Option Text
  | point _ => none
  | place key => some key.name

/-- the text that stands in a piece once it is filled in -/
def Piece.text (part : Text → Option Text) : Piece → Text
  | point c => [c]
  | place key => (part key.name).getD []

/-- the outcome, unless one of some names has no part: then the first of these is missing -/
def unlessMissing {α β : Type} (part : Text → Option α) (names : List Text) (outcome : Except Fault β) :
    Except Fault β :=
  match names.find? fun name => (part name).isNone with
  | some name => .error (.missingKey name)
  | none => outcome

theorem unlessMissing_bind {α β γ : Type} (part : Text → Option α) (names : List Text) (outcome : Except Fault β)
    (next : β → Except Fault γ) : unlessMissing part names outcome >>= next =
      unlessMissing part names (outcome >>= next) := by
  unfold unlessMissing
  cases names.find? fun name => (part name).isNone <;> rfl

/-- a text begins with pieces, after which the last text is left; a key without braces reaches as far as it can -/
inductive Reads : Text → List Piece → Text → Prop where
  | done (t : Text) : Reads t [] t
  | plain {c : Nat} {t rest : Text} {ps : List Piece} : c ≠ 36 → Reads t ps rest →
      Reads (c :: t) (.point c :: ps) rest
  | dollar {t rest : Text} {ps : List Piece} : Reads t ps rest → Reads (36 :: 36 :: t) (.point 36 :: ps) rest
  | bare {t rest : Text} {ps : List Piece} (key : Key) : (∀ c ∈ t.head?, isKeyLetter c = false) → Reads t ps rest →
      Reads (36 :: (key.name ++ t)) (.place key :: ps) rest
  | braced {t rest : Text} {ps : List Piece} (key : Key) : Reads t ps rest →
      Reads (36 :: 123 :: (key.name ++ 125 :: t)) (.place key :: ps) rest

/-- a dollar before the text opens a placeholder, or is doubled -/
inductive Opens : Text → Prop where
  | dollar (t : Text) : Opens (36 :: t)
  | bare {c : Nat} (t : Text) : isKeyLetter c = true → Opens (c :: t)
  | braced (key : Key) (t : Text) : Opens (123 :: (key.name ++ 125 :: t))

/-! ## Marks -/

theorem letter_opens_no_mark {c : Nat} (h : isKeyLetter c = true) : c ≠ 36 ∧ c ≠ 123 := by
  constructor
  · rintro rfl
    exact absurd h (by decide)
  · rintro rfl
    exact absurd h (by decide)

theorem Key.exists_cons (key : Key) : ∃ c rest, key.name = c :: rest ∧ isKeyLetter c = true := by
  cases hname : key.name with
  | nil => exact absurd hname key.name_ne_nil
  | cons c rest => exact ⟨c, rest, rfl, key.letters c (by simp [hname])⟩

/-- a key reaches up to what is no letter -/
theorem Key.split (key : Key) {t : Text} (ht : ∀ c ∈ t.head?, isKeyLetter c = false) :
    (key.name ++ t).takeWhile isKeyLetter = key.name ∧ (key.name ++ t).dropWhile isKeyLetter = t := by
  rw [List.takeWhile_append_of_pos key.letters, List.dropWhile_append_of_pos key.letters]
  cases t with
  | nil => simp
  | cons c rest =>
    have hc := ht c rfl
    simp [hc]

theorem mark_bare (key : Key) {t : Text} (ht : ∀ c ∈ t.head?, isKeyLetter c = false) :
    Mark.of (key.name ++ t) = .key key.name key.name.length := by
  have hsplit := (key.split ht).1
  obtain ⟨c, rest, hname, hletter⟩ := key.exists_cons
  obtain ⟨hdollar, hbrace⟩ := letter_opens_no_mark hletter
  rw [hname, List.cons_append] at hsplit ⊢
  simp [Mark.of, hdollar, hbrace, hsplit]

theorem mark_braced (key : Key) (t : Text) :
    Mark.of (123 :: (key.name ++ 125 :: t)) = .key key.name (key.name.length + 2) := by
  obtain ⟨htake, hdrop⟩ := key.split (t := 125 :: t) fun c hc => by
    rw [← Option.mem_some_iff.1 hc]
    decide
  simp [Mark.of, htake, hdrop, key.name_ne_nil]

theorem opens_iff {t : Text} : Opens t ↔ Mark.of t ≠ .invalid := by
  constructor
  · rintro (_ | ⟨rest, hletter⟩ | ⟨key, rest⟩)
    · simp [Mark.of]
    · obtain ⟨hdollar, hbrace⟩ := letter_opens_no_mark hletter
      simp [Mark.of, hdollar, hbrace, hletter]
    · simp [mark_braced]
  · intro hmark
    by_contra h
    refine hmark ?_
    cases t with
    | nil => rfl
    | cons c rest =>
      have hdollar : c ≠ 36 := by
        rintro rfl
        exact h (.dollar rest)
      have hletter : isKeyLetter c = false := Bool.eq_false_iff.2 fun hc => h (.bare rest hc)
      by_cases hbrace : c = 123
      · subst hbrace
        have hclosed : rest.takeWhile isKeyLetter ≠ [] → (rest.dropWhile isKeyLetter).head? ≠ some 125 := by
          intro hne hhead
          obtain ⟨after, hafter⟩ := List.head?_eq_some_iff.1 hhead
          have hkey : ∀ d ∈ rest.takeWhile isKeyLetter, isKeyLetter d = true := fun d => List.mem_takeWhile_imp
          have hopens := Opens.braced ⟨rest.takeWhile isKeyLetter, hne, hkey⟩ after
          rw [← hafter, List.takeWhile_append_dropWhile] at hopens
          exact h hopens
        simpa [Mark.of] using hclosed
      · simp [Mark.of, hdollar, hbrace, hletter]

instance (t : Text) : Decidable (Opens t) := decidable_of_iff _ opens_iff.symm

/-! ## Reading -/

/-- a text that begins with a letter begins with a key -/
theorem exists_key {c : Nat} (hletter : isKeyLetter c = true) (t : Text) :
    ∃ (key : Key) (u : Text), c :: t = key.name ++ u ∧ ∀ d ∈ u.head?, isKeyLetter d = false := by
  have hne : (c :: t).takeWhile isKeyLetter ≠ [] := by simp [hletter]
  have hkey : ∀ d ∈ (c :: t).takeWhile isKeyLetter, isKeyLetter d = true := fun d => List.mem_takeWhile_imp
  refine ⟨⟨_, hne, hkey⟩, (c :: t).dropWhile isKeyLetter, List.takeWhile_append_dropWhile.symm, fun d hd => ?_⟩
  have hhead := List.head?_dropWhile_not isKeyLetter (c :: t)
  rwa [Option.mem_def.1 hd] at hhead

/-- every template is read up to its end or up to a dollar that opens nothing -/
theorem exists_reads (t : Text) :
    ∃ ps rest, Reads t ps rest ∧ (rest = [] ∨ ∃ bad, rest = 36 :: bad ∧ ¬ Opens bad) := by
  -- a key may have any length, so the induction is on how much is left
  induction hlen : t.length using Nat.strong_induction_on generalizing t with
  | h n ih =>
    subst hlen
    cases t with
    | nil => exact ⟨[], [], .done [], .inl rfl⟩
    | cons c t =>
      by_cases hc : c = 36
      · subst hc
        by_cases hopens : Opens t
        · cases hopens with
          | dollar t =>
            obtain ⟨ps, rest, hreads, hrest⟩ := ih t.length (by simp only [List.length_cons]; omega) t rfl
            exact ⟨_, rest, .dollar hreads, hrest⟩
          | bare t hletter =>
            obtain ⟨key, u, heq, hend⟩ := exists_key hletter t
            rw [heq] at ih ⊢
            have hshorter : u.length < (36 :: (key.name ++ u)).length := by
              rw [List.length_cons, List.length_append]
              omega
            obtain ⟨ps, rest, hreads, hrest⟩ := ih u.length hshorter u rfl
            exact ⟨_, rest, .bare key hend hreads, hrest⟩
          | braced key t =>
            have hshorter : t.length < (36 :: 123 :: (key.name ++ 125 :: t)).length := by
              simp only [List.length_cons, List.length_append]
              omega
            obtain ⟨ps, rest, hreads, hrest⟩ := ih t.length hshorter t rfl
            exact ⟨_, rest, .braced key hreads, hrest⟩
        · exact ⟨[], 36 :: t, .done _, .inr ⟨t, rfl, hopens⟩⟩
      · obtain ⟨ps, rest, hreads, hrest⟩ := ih t.length (by simp) t rfl
        exact ⟨_, rest, .plain hc hreads, hrest⟩

/-! ## Filling in -/

section

variable {part : Text → Option Text}

theorem fillFrom_skip (before a t : Text) :
    fillFrom part before a.length (a ++ t) = fillFrom part (a.reverse ++ before) 0 t := by
  induction a generalizing before with
  | nil => rfl
  | cons c rest ih =>
    rw [List.cons_append, List.length_cons, fillFrom, ih]
    simp

theorem fillFrom_plain {c : Nat} (hc : c ≠ 36) (before t : Text) :
    fillFrom part before 0 (c :: t) = (do return [c] ++ (← fillFrom part (c :: before) 0 t)) := by
  rw [fillFrom, if_pos hc]
  rfl

theorem fillFrom_dollar (before t : Text) :
    fillFrom part before 0 (36 :: 36 :: t) = (do return [36] ++ (← fillFrom part (36 :: 36 :: before) 0 t)) := by
  have hskip : fillFrom part (36 :: before) 1 (36 :: t) = fillFrom part (36 :: 36 :: before) 0 t :=
    fillFrom_skip (36 :: before) [36] t
  rw [fillFrom, if_neg (by decide)]
  simp only [Mark.of, if_pos, hskip]
  rfl

/-- a mark that is a key is replaced by its part, if there is one -/
theorem fillFrom_place {name mark t : Text} (hmark : Mark.of (mark ++ t) = .key name mark.length) (before : Text) :
    fillFrom part before 0 (36 :: (mark ++ t)) =
      match part name with
      | some text => do return text ++ (← fillFrom part (mark.reverse ++ 36 :: before) 0 t)
      | none => .error (.missingKey name) := by
  rw [fillFrom, if_neg (by decide), hmark]
  dsimp only
  cases part name with
  | none => rfl
  | some text =>
    change (do return text ++ (← fillFrom part (36 :: before) mark.length (mark ++ t))) = _
    rw [fillFrom_skip]

/-- a place that is read is filled in, and what follows it as before, if its key has a part -/
theorem fillFrom_key (key : Key) {mark t : Text} (hmark : Mark.of (mark ++ t) = .key key.name mark.length)
    {before : Text} {names : List Text} {outcome : Except Fault Text}
    (h : fillFrom part (mark.reverse ++ 36 :: before) 0 t = unlessMissing part names outcome) :
    fillFrom part before 0 (36 :: (mark ++ t)) =
      unlessMissing part (key.name :: names) (do return (Piece.place key).text part ++ (← outcome)) := by
  rw [fillFrom_place hmark, h]
  cases hpart : part key.name with
  | none => simp [unlessMissing, hpart]
  | some text =>
    change (do return text ++ (← unlessMissing part names outcome)) = _
    rw [unlessMissing_bind]
    simp [unlessMissing, Piece.text, hpart]

variable (part) in
/-- what has been read is filled in, unless a part is missing, and filling goes on after it -/
theorem fillFrom_reads {t rest : Text} {ps : List Piece} (h : Reads t ps rest) (before : Text) :
    ∃ read, t = read ++ rest ∧ fillFrom part before 0 t =
      unlessMissing part (ps.filterMap Piece.name?)
        (do return ps.flatMap (Piece.text part) ++ (← fillFrom part (read.reverse ++ before) 0 rest)) := by
  -- what has been read goes over to what was read before, which decides the place of a fault
  induction h generalizing before with
  | done t =>
    refine ⟨[], rfl, ?_⟩
    change fillFrom part before 0 t = (fillFrom part before 0 t).map id
    exact (id_map _).symm
  | @plain c t rest ps hc _ ih =>
    obtain ⟨read, rfl, hfill⟩ := ih (c :: before)
    refine ⟨c :: read, rfl, ?_⟩
    rw [fillFrom_plain hc, hfill, unlessMissing_bind, List.filterMap_cons_none rfl]
    simp [Piece.text]
  | @dollar t rest ps _ ih =>
    obtain ⟨read, rfl, hfill⟩ := ih (36 :: 36 :: before)
    refine ⟨36 :: 36 :: read, rfl, ?_⟩
    rw [fillFrom_dollar, hfill, unlessMissing_bind, List.filterMap_cons_none rfl]
    simp [Piece.text]
  | @bare t rest ps key hend _ ih =>
    obtain ⟨read, rfl, hfill⟩ := ih (key.name.reverse ++ 36 :: before)
    refine ⟨36 :: (key.name ++ read), by simp, ?_⟩
    rw [fillFrom_key key (mark_bare key hend) hfill]
    simp [Piece.name?]
  | @braced t rest ps key _ ih =>
    obtain ⟨read, rfl, hfill⟩ := ih ((123 :: (key.name ++ [125])).reverse ++ 36 :: before)
    refine ⟨36 :: 123 :: (key.name ++ 125 :: read), by simp, ?_⟩
    have hmark : Mark.of (123 :: (key.name ++ [125]) ++ (read ++ rest)) =
        .key key.name (123 :: (key.name ++ [125])).length := by
      simpa using mark_braced key (read ++ rest)
    have hkey := fillFrom_key key hmark hfill
    simp only [List.cons_append, List.append_assoc, List.nil_append] at hkey ⊢
    rw [hkey]
    simp [Piece.name?]

end

/-! ## Written templates -/

/-- what a template is meant to consist of -/
inductive Segment where
  | literal (t : Text)
  | place (key : Key)

/-- how a segment is written: dollars of a literal text are doubled, keys stand in braces -/
def Segment.written : Segment → Text
  | literal t => t.flatMap fun c => if c = 36 then [36, 36] else [c]
  | place key => 36 :: 123 :: (key.name ++ [125])

def Segment.pieces : Segment → List Piece
  | literal t => t.map .point
  | place key => [.place key]

def Segment.name? : Segment → Option Text
  | literal _ => none
  | place key => some key.name

def Segment.text (part : Text → Option Text) : Segment → Text
  | literal t => t
  | place key => (part key.name).getD []

theorem reads_literal (t : Text) {u rest : Text} {ps : List Piece} (h : Reads u ps rest) :
    Reads ((Segment.literal t).written ++ u) ((Segment.literal t).pieces ++ ps) rest := by
  induction t with
  | nil => exact h
  | cons c t ih =>
    by_cases hc : c = 36
    · subst hc
      exact .dollar ih
    · have hwritten : (Segment.literal (c :: t)).written = c :: (Segment.literal t).written := by
        simp [Segment.written, hc]
      rw [hwritten]
      exact .plain hc ih

/-- segments are read as they were meant, whatever follows them -/
theorem reads_written (segments : List Segment) (rest : Text) :
    Reads (segments.flatMap Segment.written ++ rest) (segments.flatMap Segment.pieces) rest := by
  induction segments with
  | nil => exact .done rest
  | cons s segments ih =>
    rw [List.flatMap_cons, List.flatMap_cons, List.append_assoc]
    cases s with
    | literal t => exact reads_literal t ih
    | place key =>
      have hread := Reads.braced key ih
      rwa [← List.singleton_append (l := _ ++ rest), ← List.append_assoc] at hread

theorem names_pieces (segments : List Segment) :
    (segments.flatMap Segment.pieces).filterMap Piece.name? = segments.filterMap Segment.name? := by
  induction segments with
  | nil => rfl
  | cons s rest ih =>
    rw [List.flatMap_cons, List.filterMap_append, ih]
    cases s with
    | literal t =>
      have hnone : (t.map Piece.point).filterMap Piece.name? = [] := by simp [List.filterMap_map, Piece.name?]
      rw [Segment.pieces, hnone, List.filterMap_cons_none rfl, List.nil_append]
    | place key => rfl

theorem text_pieces (part : Text → Option Text) (segments : List Segment) :
    (segments.flatMap Segment.pieces).flatMap (Piece.text part) = segments.flatMap (Segment.text part) := by
  rw [List.flatMap_assoc]
  congr 1
  funext s
  cases s with
  | literal t => simp [Segment.pieces, Segment.text, List.flatMap_map, Piece.text]
  | place key => simp [Segment.pieces, Segment.text, Piece.text]

/-! ## Parts -/

/-- parts for a template: some without a name, whose keys are their numbers, and named ones under other keys -/
structure Assignment where
  parts : List Part
  named : List (Text × Part)
  nodup : (named.map Prod.fst).Nodup
  not_reserved : reserved ∉ named.map Prod.fst
  not_numbered : ∀ i < parts.length, Number.decimal i ∉ named.map Prod.fst

def Assignment.entries (a : Assignment) : List (Text × Part) :=
  a.parts.zipIdx.map (fun p => (Number.decimal p.2, p.1)) ++ a.named

def Assignment.text? (a : Assignment) (key : Text) : Option Text :=
  (OrderedMap.lookupIn key a.entries).map Part.content

/-- the imports that all parts bring, those of parts without a name first -/
def Assignment.imports (a : Assignment) : List ImportTable :=
  (a.parts ++ a.named.map Prod.snd).filterMap Part.imports?

theorem decimal_injective : Function.Injective Number.decimal := by
  intro m n h
  have hdigits := List.map_injective_iff.2 (fun _ _ => Char.toNat_inj.1) h
  rw [← Nat.ofDigitChars_ten_toDigits (n := m), hdigits, Nat.ofDigitChars_ten_toDigits]

theorem Assignment.nodup_entries (a : Assignment) : (a.entries.map Prod.fst).Nodup := by
  have hnumbers : (a.parts.zipIdx.map fun p => (Number.decimal p.2, p.1)).map Prod.fst =
      (List.range a.parts.length).map Number.decimal := by
    rw [List.range_eq_range', ← List.zipIdx_map_snd, List.map_map, List.map_map]
    rfl
  rw [entries, List.map_append, hnumbers, List.nodup_append]
  refine ⟨List.nodup_range.map decimal_injective, a.nodup, ?_⟩
  rintro _ hkey key hnamed rfl
  obtain ⟨i, hi, rfl⟩ := List.mem_map.1 hkey
  exact a.not_numbered i (List.mem_range.1 hi) hnamed

/-- all parts are found under their keys, and all bring their imports -/
theorem compose_assigned (a : Assignment) (template : Text) :
    compose template a.parts a.named = (do return ⟨← fill template a.text?, ImportTable.merge a.imports⟩) := by
  have hentries : (partsByKey a.parts a.named).entries = a.entries := OrderedMap.entries_ofList a.nodup_entries
  have hnamed : a.named.any (·.1 == reserved) = false := by
    rw [List.any_eq_false]
    intro e he hkey
    exact a.not_reserved (List.mem_map.2 ⟨e, he, beq_iff_eq.1 hkey⟩)
  have himports : a.entries.filterMap (fun e => e.2.imports?) = a.imports := by
    rw [Assignment.imports, ← List.zipIdx_map_fst 0 a.parts, Assignment.entries, List.filterMap_append,
      List.filterMap_append, List.filterMap_map, List.filterMap_map, List.filterMap_map]
    rfl
  have hpart : ∀ key, ((partsByKey a.parts a.named).get? key).map Part.content = a.text? key := fun key =>
    congrArg (Option.map Part.content) (OrderedMap.get?_ofList_eq a.nodup_entries key)
  unfold compose
  simp only [hnamed, hpart, hentries, himports, Bool.false_eq_true, if_false]

/-! ## Composing -/

/-- what has been read is composed, unless a part is missing, and filling goes on after it -/
theorem compose_reads (a : Assignment) {template rest : Text} {ps : List Piece} (h : Reads template ps rest) :
    ∃ read, template = read ++ rest ∧ compose template a.parts a.named =
      unlessMissing a.text? (ps.filterMap Piece.name?)
        (do return ⟨ps.flatMap (Piece.text a.text?) ++ (← fillFrom a.text? read.reverse 0 rest),
          ImportTable.merge a.imports⟩) := by
  obtain ⟨read, hread, hfill⟩ := fillFrom_reads a.text? h []
  refine ⟨read, hread, ?_⟩
  rw [compose_assigned, fill, hfill, unlessMissing_bind, List.append_nil]
  simp

theorem compose_whole (a : Assignment) {template : Text} {ps : List Piece} (h : Reads template ps []) :
    compose template a.parts a.named = unlessMissing a.text? (ps.filterMap Piece.name?)
      (.ok ⟨ps.flatMap (Piece.text a.text?), ImportTable.merge a.imports⟩) := by
  obtain ⟨read, -, hcompose⟩ := compose_reads a h
  rw [hcompose, fillFrom]
  simp [pure, Except.pure, bind, Except.bind]

theorem compose_stops (a : Assignment) {read bad : Text} {ps : List Piece}
    (h : Reads (read ++ 36 :: bad) ps (36 :: bad)) (hbad : ¬ Opens bad) :
    compose (read ++ 36 :: bad) a.parts a.named = unlessMissing a.text? (ps.filterMap Piece.name?)
      (let place := position (1, 0) (read ++ [36])
      .error (.invalidPlaceholder place.1 place.2)) := by
  obtain ⟨read', hread, hcompose⟩ := compose_reads a h
  cases List.append_cancel_right hread
  have hmark : Mark.of bad = .invalid := not_not.1 fun hmark => hbad (opens_iff.2 hmark)
  rw [hcompose, fillFrom, if_neg (by decide), hmark]
  simp [bind, Except.bind]

/-- **A template is filled in in one pass.** Written from literal texts and keys, it comes to the texts and the parts of
the keys as they are, with the imports of all parts, or to the first key without a part. Any template is read up to its
end or up to a dollar that opens nothing, which is refused where it stands unless a key before it has no part. -/
theorem composed_in_one_pass (a : Assignment) :
    (∀ segments : List Segment, compose (segments.flatMap Segment.written) a.parts a.named =
      unlessMissing a.text? (segments.filterMap Segment.name?)
        (.ok ⟨segments.flatMap (Segment.text a.text?), ImportTable.merge a.imports⟩)) ∧
    (∀ template ps, Reads template ps [] → compose template a.parts a.named =
      unlessMissing a.text? (ps.filterMap Piece.name?)
        (.ok ⟨ps.flatMap (Piece.text a.text?), ImportTable.merge a.imports⟩)) ∧
    (∀ read ps bad, Reads (read ++ 36 :: bad) ps (36 :: bad) → ¬ Opens bad →
      compose (read ++ 36 :: bad) a.parts a.named = unlessMissing a.text? (ps.filterMap Piece.name?)
        (let place := position (1, 0) (read ++ [36])
        .error (.invalidPlaceholder place.1 place.2))) ∧
    ∀ template, ∃ ps rest, Reads template ps rest ∧ (rest = [] ∨ ∃ bad, rest = 36 :: bad ∧ ¬ Opens bad) := by
  refine ⟨fun segments => ?_, fun _ _ => compose_whole a, fun _ _ _ => compose_stops a, exists_reads⟩
  have hreads := reads_written segments []
  rw [List.append_nil] at hreads
  rw [compose_whole a hreads, names_pieces, text_pieces]

/-- the key of the first part without a name -/
def firstPart : Key := ⟨"0", by decide, by decide⟩

/-- a name that none of the parts below has -/
def unknownPart : Key := ⟨"x", by decide, by decide⟩

/-- a text that looks like a template, a type of addresses, and a hook with its name -/
def offer : Assignment where
  parts := [
    .text "$5 or $\x7bx\x7d",
    .fragment ⟨"Address", ImportTable.create "solanaAddresses" [⟨"Address", true, "Address"⟩]⟩]
  named := [("hook", .fragment ⟨"useMemo", ImportTable.create "react" [⟨"useMemo", false, "useMemo"⟩]⟩)]
  nodup := by decide
  not_reserved := by decide
  not_numbered := by decide

theorem offer_composed :
    (compose ([.literal "in $: ", .place firstPart].flatMap Segment.written) offer.parts offer.named).map
        (fun f => (f.content, f.imports.text)) =
      .ok ("in $: $5 or $\x7bx\x7d",
        "import \x7b useMemo \x7d from 'react';\nimport \x7b type Address \x7d from 'solanaAddresses';") ∧
    ¬ Opens "!" ∧
    compose ([.literal "in\n", .place firstPart].flatMap Segment.written ++ "$!") offer.parts offer.named =
      .error (.invalidPlaceholder 2 5) ∧
    compose ([.place unknownPart].flatMap Segment.written ++ "$!") offer.parts offer.named =
      .error (.missingKey "x") := by
  obtain ⟨hwritten, -, hstops, -⟩ := composed_in_one_pass offer
  have hbad : ¬ Opens "!" := by decide
  refine ⟨?_, hbad, ?_, ?_⟩
  · rw [hwritten]
    exact congrArg Except.ok (by decide +kernel)
  · refine (hstops _ _ _ (reads_written _ _) hbad).trans ?_
    rfl
  · refine (hstops _ _ _ (reads_written _ _) hbad).trans ?_
    rfl

end Template

end InterfacePages
