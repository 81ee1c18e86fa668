/-
What filling in a pattern comes down to.

The name of a field is a label with parts, which can be read before anything is looked up: following it is a walk along
its parts, and a fault in the writing counts only when the walk has come that far (`follow_eq`, `object_eq`). So the
fields of a pattern are the same for every name, each has its text on its own (`fieldText`), and a pattern is filled in
if each of its fields has one and nothing is wrong with the writing (`fillAt_ok`); otherwise it fails with the first
fault (`fillAt_error`).
-/
import InterfacePages.Name.Pattern
import InterfacePages.Proofs.FirstFaults

namespace InterfacePages

namespace Name

namespace Pattern

open Reflection (Object Index)

/-! ## Parts -/

/-- a part of a field's name after its label: a member or an item -/
inductive Part where
  | member (name : Text)
  | item (index : Index)
  deriving DecidableEq, Repr

def Part.of (o : Object) : Part → Except Fault Object
  | .member name => o.member name
  | .item index => o.item index

/-- what stands between square brackets -/
def indexOf (number : Option Nat) (key : Text) : Index := (number.map .place).getD (.key key)

/-- the first part in a text, and what follows it -/
def readPart : Text → Except PatternFault (Part × Text)
  | 46 :: rest =>
    let name := rest.takeWhile (!startsPart ·)
    if name.isEmpty then .error .emptyAttribute else .ok (.member name, rest.dropWhile (!startsPart ·))
  | 91 :: rest =>
    match Text.cut? 93 rest with
    | none => .error .missingBracket
    | some (key, rest) =>
      match wholeNumber key with
      | .error _ => .error .tooManyDigits
      | .ok number => if key.isEmpty then .error .emptyAttribute else .ok (.item (indexOf number key), rest)
  | _ => .error .afterBracket

def partsOf : Nat → Text → List Part × Option PatternFault
  | 0, _ => ([], none)
  | fuel + 1, t =>
    if t.isEmpty then ([], none)
    else
      match readPart t with
      | .error fault => ([], some fault)
      | .ok (part, rest) =>
        let (parts, fault) := partsOf fuel rest
        (part :: parts, fault)

/-- walks along parts from an object -/
def walk (parts : List Part) (o : Object) : Except Fault Object := parts.foldlM Part.of o

@[simp] theorem walk_nil (o : Object) : walk [] o = .ok o := rfl

@[simp] theorem walk_cons (p : Part) (parts : List Part) (o : Object) :
    walk (p :: parts) o = p.of o >>= walk parts := List.foldlM_cons

theorem walk_append (before after : List Part) (o : Object) :
    walk (before ++ after) o = walk before o >>= walk after := List.foldlM_append

/-- an answer, unless the writing has a fault -/
def ending {ρ : Type} (fault : Option PatternFault) (a : ρ) : Except Fault ρ :=
  match fault with
  | none => .ok a
  | some fault => .error (.pattern fault)

theorem wholeNumber_error {t : Text} {fault : Fault} (h : wholeNumber t = .error fault) :
    fault = .pattern .tooManyDigits := by
  unfold wholeNumber at h
  split at h
  · cases h
  · split at h
    · cases h
      rfl
    · split at h <;> cases h

theorem follow_nil (fuel : Nat) (o : Object) : follow (fuel + 1) [] o = .ok o := by rw [follow]

theorem follow_step (fuel : Nat) {t : Text} (ht : t ≠ []) (o : Object) :
    follow (fuel + 1) t o =
      match readPart t with
      | .error fault => .error (.pattern fault)
      | .ok (part, rest) => part.of o >>= follow fuel rest := by
  unfold follow
  split
  · exact absurd rfl ht
  · next rest =>
    by_cases hempty : (rest.takeWhile (!startsPart ·)).isEmpty = true
    · simp only [readPart, hempty, if_true]
    · simp only [readPart, hempty]
      rfl
  · next rest =>
    simp only [readPart]
    cases Text.cut? 93 rest with
    | none => rfl
    | some cut =>
      obtain ⟨key, rest⟩ := cut
      dsimp only
      cases hkey : wholeNumber key with
      | error fault =>
        cases wholeNumber_error hkey
        rfl
      | ok number =>
        by_cases hempty : key.isEmpty = true
        · simp only [hempty, if_true]
          rfl
        · simp only [hempty]
          rfl
  · next hmember hitem =>
    rw [readPart]
    · exact hmember
    · exact hitem

theorem follow_eq (fuel : Nat) (t : Text) (o : Object) :
    follow fuel t o = walk (partsOf fuel t).1 o >>= ending (partsOf fuel t).2 := by
  induction fuel generalizing t o with
  | zero => rfl
  | succ fuel ih =>
    unfold partsOf
    cases ht : t.isEmpty with
    | true =>
      rw [List.isEmpty_iff.1 ht, follow_nil]
      rfl
    | false =>
      rw [follow_step fuel (List.isEmpty_eq_false_iff.1 ht)]
      rw [if_neg Bool.false_ne_true]
      cases readPart t with
      | error fault => rfl
      | ok read =>
        obtain ⟨part, rest⟩ := read
        dsimp only
        rw [walk_cons, bind_assoc]
        exact congrArg _ (funext fun p => ih rest p)

/-! ## Names of fields -/

def labelOf (fieldName : Text) : Text := fieldName.takeWhile (!startsPart ·)

/-- the parts that follow the label, with the fault that ends them -/
def readParts (fieldName : Text) : List Part × Option PatternFault :=
  partsOf (fieldName.length + 1) (fieldName.dropWhile (!startsPart ·))

def labels : List Text := [
  Text.ofString "name", Text.ofString "camelCase", Text.ofString "capitalize", Text.ofString "kebabCase",
  Text.ofString "pascalCase", Text.ofString "snakeCase", Text.ofString "titleCase"]

theorem spelling?_isSome (name label : Text) : (spelling? name label).isSome = true ↔ label ∈ labels := by
  unfold spelling? labels
  simp only [beq_iff_eq, List.mem_cons, List.not_mem_nil, or_false]
  repeat' split
  all_goals simp_all

theorem labels_wordy : ∀ label ∈ labels, wholeNumber label = .ok none ∧ label.isEmpty = false := by
  have hall : ∀ label ∈ labels, (wholeNumber label).toOption = some none ∧ label.isEmpty = false := by decide
  intro label hlabel
  obtain ⟨hnumber, hempty⟩ := hall label hlabel
  cases h : wholeNumber label with
  | ok number =>
    rw [h] at hnumber
    exact ⟨congrArg _ (Option.some.inj hnumber), hempty⟩
  | error fault =>
    rw [h] at hnumber
    cases hnumber

theorem object_eq {name fieldName t : Text} (h : spelling? name (labelOf fieldName) = some t) :
    object name fieldName = walk (readParts fieldName).1 (.text t) >>= ending (readParts fieldName).2 := by
  obtain ⟨hnumber, hempty⟩ := labels_wordy _ ((spelling?_isSome name _).1 (by rw [h]; rfl))
  unfold labelOf at h hnumber hempty
  unfold object
  simp only [hnumber, hempty, h]
  exact follow_eq _ _ _

/-! ## Fields -/

def Piece.field? : Piece → Option Field
  | .literal _ => none
  | .field f => some f

/-- the fields of a pattern, up to the first fault in its writing -/
def fieldsOf (t : Text) : List Field := (split (t.length + 1) t).1.filterMap Piece.field?

def writingFault? (t : Text) : Option PatternFault := (split (t.length + 1) t).2

def valueOf (name : Text) (f : Field) : Except Fault Object := do convert f.conversion (← object name f.name)

/-- the layout of a field for a name; `depth` more layouts can be nested in it -/
def layoutOf (name : Text) (depth : Nat) (f : Field) : Except Fault Text :=
  if f.nested then fillAt name depth f.layout else .ok f.layout

def fieldText (name : Text) (depth : Nat) (f : Field) : Except Fault Text := do
  let o ← valueOf name f
  let layout ← layoutOf name depth f
  layOut layout o

theorem fillPieces_field (name : Text) (depth : Nat) (f : Field) (rest : List Piece) :
    fillPieces (fillAt name depth) name (.field f :: rest) = do
      let shown ← fieldText name depth f
      return shown ++ (← fillPieces (fillAt name depth) name rest) := by
  simp only [fillPieces, fieldText, valueOf, layoutOf, bind_assoc]
  cases f.nested <;> rfl

/-- filling in pieces fails as the list of their fields does -/
theorem fillPieces_error {name : Text} {depth : Nat} {pieces : List Piece} {e : Fault} :
    fillPieces (fillAt name depth) name pieces = .error e ↔
      (pieces.filterMap Piece.field?).mapM (fieldText name depth) = .error e := by
  induction pieces with
  | nil => simp [fillPieces, pure, Except.pure]
  | cons piece rest ih =>
    cases piece with
    | literal t =>
      have hfields : (Piece.literal t :: rest).filterMap Piece.field? = rest.filterMap Piece.field? := rfl
      rw [fillPieces, except_bind_error, ih, hfields]
      exact ⟨fun h => h.resolve_right fun ⟨_, _, h⟩ => (nomatch h), .inl⟩
    | field f =>
      have hfields : (Piece.field f :: rest).filterMap Piece.field? = f :: rest.filterMap Piece.field? := rfl
      rw [fillPieces_field, hfields, List.mapM_cons]
      simp only [except_bind_error, ih]
      simp only [pure, Except.pure, reduceCtorEq, and_false, exists_false, or_false]

/-- **A pattern fails with the first fault of a field or, when each field has a text, with that of its writing.** -/
theorem fillAt_error {name : Text} {depth : Nat} {t : Text} {e : Fault} :
    fillAt name (depth + 1) t = .error e ↔
      (fieldsOf t).mapM (fieldText name depth) = .error e ∨
        (∀ f ∈ fieldsOf t, ∃ shown, fieldText name depth f = .ok shown) ∧
          ∃ fault, writingFault? t = some fault ∧ e = .pattern fault := by
  have hreturns : (∃ filled, fillPieces (fillAt name depth) name (split (t.length + 1) t).1 = .ok filled) ↔
      ∀ f ∈ fieldsOf t, ∃ shown, fieldText name depth f = .ok shown := by
    rw [← mapM_returns, exists_ok_iff, exists_ok_iff]
    exact forall_congr' fun e => not_congr fillPieces_error
  rw [← hreturns, fillAt, except_bind_error, fillPieces_error, fieldsOf, writingFault?]
  refine or_congr_right ⟨?_, ?_⟩
  · rintro ⟨filled, hfilled, h⟩
    refine ⟨⟨filled, hfilled⟩, ?_⟩
    cases hfault : (split (t.length + 1) t).2 with
    | none =>
      rw [hfault] at h
      cases h
    | some fault =>
      rw [hfault] at h
      cases h
      exact ⟨fault, rfl, rfl⟩
  · rintro ⟨⟨filled, hfilled⟩, fault, hfault, rfl⟩
    refine ⟨filled, hfilled, ?_⟩
    rw [hfault]
    rfl

/-- **A pattern is filled in if nothing is wrong with its writing and each field has a text.** -/
theorem fillAt_ok {name : Text} {depth : Nat} {t : Text} :
    (∃ filled, fillAt name (depth + 1) t = .ok filled) ↔
      writingFault? t = none ∧ ∀ f ∈ fieldsOf t, ∃ shown, fieldText name depth f = .ok shown := by
  rw [exists_ok_iff]
  constructor
  · intro h
    have hfields : ∀ f ∈ fieldsOf t, ∃ shown, fieldText name depth f = .ok shown := by
      rw [← mapM_returns, exists_ok_iff]
      exact fun e he => h e (fillAt_error.2 (.inl he))
    refine ⟨Option.eq_none_iff_forall_not_mem.2 fun fault hfault => ?_, hfields⟩
    exact h _ (fillAt_error.2 (.inr ⟨hfields, fault, hfault, rfl⟩))
  · rintro ⟨hfault, hfields⟩ e he
    rcases fillAt_error.1 he with he | ⟨_, fault, hsome, _⟩
    · exact exists_ok_iff.1 (mapM_returns.2 hfields) e he
    · rw [hfault] at hsome
      cases hsome

end Pattern

end Name

end InterfacePages
