/-
Text as a list of code points.

Interface trees arrive as JSON, whose escapes can name a surrogate without its partner, so a text is a list of code
points and not a `String`: every code point may occur, and only writing a file (`Text.Utf8`) refuses the surrogates.
String literals stand for texts wherever a text is expected.

`joinWith`, `splitOn`, `replaceAll` and `sorted` are the operations the generated files are built with; order is
always by code point.
-/
namespace InterfacePages

/-- a text is the list of its code points, surrogates included -/
abbrev Text := List Nat

namespace Text

def ofString (s : String) : Text := s.toList.map Char.toNat

instance : Coe String Text := ⟨ofString⟩

/-- the pieces in order with `separator` between neighbours -/
def joinWith (separator : Text) : List Text → Text
  | [] => []
  | [piece] => piece
  | piece :: pieces => piece ++ (separator ++ joinWith separator pieces)

def joinLines (pieces : List Text) : Text := joinWith "\n" pieces

/-- pieces with a blank line between neighbours -/
def joinParagraphs (pieces : List Text) : Text := joinWith "\n\n" pieces

/-- the pieces between the occurrences of one code point, empty ones included; never the empty list -/
def splitOn (separator : Nat) : Text → List Text
  | [] => [[]]
  | c :: rest =>
    if c = separator then [] :: splitOn separator rest
    else
      match splitOn separator rest with
      | [] => [[c]]
      | piece :: pieces => (c :: piece) :: pieces

def dropEndWhile (p : Nat → Bool) (t : Text) : Text := (t.reverse.dropWhile p).reverse

def trimBoth (p : Nat → Bool) (t : Text) : Text := dropEndWhile p (t.dropWhile p)

/-- the rest after `lead`, when the text starts with it -/
def after? (lead : Text) (t : Text) : Option Text :=
  match lead, t with
  | [], t => some t
  | _ :: _, [] => none
  | a :: lead, b :: t => if a = b then after? lead t else none

/-- whether the text starts with `lead` -/
def startsWith (lead : Text) (t : Text) : Bool := (after? lead t).isSome

/-- every occurrence of `needle`, from the left and without overlap, becomes `replacement`; `skip` is what is left of
the occurrence just replaced -/
def replaceFrom (needle replacement : Text) : Nat → Text → Text
  | _, [] => []
  | skip + 1, _ :: rest => replaceFrom needle replacement skip rest
  | 0, c :: rest =>
    if startsWith needle (c :: rest) then replacement ++ replaceFrom needle replacement (needle.length - 1) rest
    else c :: replaceFrom needle replacement 0 rest

/-- every occurrence of the non-empty `needle` becomes `replacement` -/
def replaceAll (needle replacement : Text) (t : Text) : Text := replaceFrom needle replacement 0 t

/-- what stands before and after the first occurrence of a code point -/
def cut? (separator : Nat) : Text → Option (Text × Text)
  | [] => none
  | c :: rest =>
    if c = separator then some ([], rest)
    else (cut? separator rest).map fun (before, after) => (c :: before, after)

/-- order by code point, a beginning before what it begins -/
def le : Text → Text → Bool
  | [], _ => true
  | _ :: _, [] => false
  | a :: as, b :: bs => if a = b then le as bs else decide (a < b)

/-- strict order by code point -/
def lt (a b : Text) : Bool := le a b && a != b

/-- puts a text before the first one of a sorted list that is not smaller -/
def insertSorted (t : Text) : List Text → List Text
  | [] => [t]
  | u :: us => if le t u then t :: u :: us else u :: insertSorted t us

/-- texts in code-point order -/
def sorted (ts : List Text) : List Text := ts.foldr insertSorted []

/-- drops later copies of a text -/
def distinct : List Text → List Text
  | [] => []
  | t :: ts => t :: (distinct ts).filter (· != t)

/-- line ends of any of the three conventions become a single line feed -/
def unixLines : Text → Text
  | [] => []
  | 13 :: 10 :: rest => 10 :: unixLines rest
  | 13 :: rest => 10 :: unixLines rest
  | c :: rest => c :: unixLines rest

/-- one code point several times -/
def repeated (count c : Nat) : Text := List.replicate count c

/-- as wide as `width` or wider, filled with spaces on the right -/
def padEnd (width : Nat) (t : Text) : Text := t ++ repeated (width - t.length) 32

/-- as wide as `width` or wider, filled with spaces on the left -/
def padStart (width : Nat) (t : Text) : Text := repeated (width - t.length) 32 ++ t

theorem le_refl (a : Text) : le a a = true := by
  induction a with
  | nil => rfl
  | cons c a ih => simp [le, ih]

theorem le_total (a b : Text) : (le a b || le b a) = true := by
  induction a generalizing b with
  | nil => simp [le]
  | cons c a ih =>
    cases b with
    | nil => simp [le]
    | cons d b =>
      by_cases h : c = d
      · simpa [le, h] using ih b
      · have : d ≠ c := fun e => h e.symm
        simp only [le, h, this, if_false, Bool.or_eq_true, decide_eq_true_eq]
        omega

theorem le_trans (a b c : Text) : le a b = true → le b c = true → le a c = true := by
  induction a generalizing b c with
  | nil => intros; rfl
  | cons x a ih =>
    intro h1 h2
    match b, c with
    | [], _ => simp [le] at h1
    | _ :: _, [] => simp [le] at h2
    | y :: b, z :: c =>
      simp only [le] at h1 h2 ⊢
      by_cases hxy : x = y
      · subst hxy
        rw [if_pos rfl] at h1
        by_cases hxz : x = z
        · subst hxz
          rw [if_pos rfl] at h2 ⊢
          exact ih b c h1 h2
        · rw [if_neg hxz] at h2 ⊢
          exact h2
      · rw [if_neg hxy] at h1
        by_cases hyz : y = z
        · subst hyz
          rw [if_neg hxy]
          exact h1
        · rw [if_neg hyz] at h2
          have hlt1 : x < y := by simpa using h1
          have hlt2 : y < z := by simpa using h2
          have hxz : x ≠ z := by omega
          rw [if_neg hxz]
          exact decide_eq_true (by omega)

theorem le_antisymm (a b : Text) : le a b = true → le b a = true → a = b := by
  induction a generalizing b with
  | nil =>
    intro _ h
    cases b with
    | nil => rfl
    | cons _ _ => simp [le] at h
  | cons x a ih =>
    intro h1 h2
    match b with
    | [] => simp [le] at h1
    | y :: b =>
      by_cases hxy : x = y
      · subst hxy
        simp only [le] at h1 h2
        rw [ih b h1 h2]
      · have hyx : y ≠ x := fun e => hxy e.symm
        simp only [le, hxy, hyx, if_false, decide_eq_true_eq] at h1 h2
        omega

end Text

end InterfacePages
