/-
How trying a pattern fails.

Whatever is wrong with the writing of a pattern, with a label or with a layout is reported, and so are members and items
that are not there. What is not reported is that an object has no items at all, that an object which is neither a text
nor a number has a layout, and that a number beyond the characters is laid out as one: `Escapes` says that filling in a
pattern comes to one of these, and apart from the memory nothing else is passed on (`fillAt_fault`,
`Escapes.fillAt_eq`). So a setting for a name is taken or reported exactly if trying its pattern does not escape
(`overrides_checked`).
-/
import InterfacePages.Command.Settings
import InterfacePages.Proofs.PatternFields
import InterfacePages.Proofs.Texts

namespace InterfacePages

/-- a fault of the families that the settings report when a pattern is tried -/
def Fault.Reported (fault : Fault) : Prop := fault.family ∈ [FaultFamily.member, .key, .place, .value]

namespace Fault

theorem reported_missingMember (owner : MemberOwner) (member : Text) : (missingMember owner member).Reported := by
  simp [Reported, family]

theorem reported_missingKey (key : Text) : (missingKey key).Reported := by
  simp [Reported, family]

theorem reported_index (cause : IndexFault) : (index cause).Reported := by
  simp [Reported, family]

theorem reported_pattern (cause : PatternFault) : (pattern cause).Reported := by
  simp [Reported, family]

end Fault

/-! ## Members and items -/

namespace Reflection

namespace Object

theorem missing_reported (name : Text) (o : Object) : (o.missing name).Reported := by
  unfold missing
  split <;> exact Fault.reported_missingMember _ _

theorem bound_fault (owner : Class) (m : Member) (o : Object) : FailsOnly Fault.Reported (bound owner m o) := by
  cases m with
  | computed name _ =>
    simp only [bound]
    split
    · exact .ok _
    · exact .error (missing_reported name o)
  | stored name =>
    simp only [bound]
    split
    · exact .ok _
    · exact .error (missing_reported name o)
  | _ => exact .ok _

theorem member_fault (name : Text) (o : Object) : FailsOnly Fault.Reported (o.member name) := by
  unfold member
  dsimp only
  split
  · split
    · exact bound_fault _ _ o
    · split
      · exact .ok _
      · split
        · exact bound_fault _ _ o
        · exact .error (missing_reported name o)
  · split
    · exact bound_fault _ _ o
    · exact .error (missing_reported name o)

def hasItems : Object → Index → Bool
  | .text _, .place _ => true
  | .classes _, .place _ => true
  | .table _, _ => true
  | .type .type, _ => true
  | .type .tuple, _ => true
  | .type .table, _ => true
  | _, _ => false

theorem item_of_none {o : Object} {index : Index} (h : o.hasItems index = false) :
    o.item index = .error .wrongType := by
  unfold item
  split <;> first | cases h | rfl

theorem item_fault (index : Index) (o : Object) :
    FailsOnly (fun fault => fault.Reported ∨ fault = .wrongType ∧ o.hasItems index = false) (o.item index) := by
  cases hitems : o.hasItems index with
  | false =>
    rw [item_of_none hitems]
    exact .error (.inr ⟨rfl, rfl⟩)
  | true =>
    unfold hasItems at hitems
    split at hitems
    · simp only [item]
      split
      · exact .ok _
      · exact .error (.inl (Fault.reported_index _))
    · simp only [item]
      split
      · exact .ok _
      · exact .error (.inl (Fault.reported_index _))
    · cases index with
      | place n => exact .error (.inl (Fault.reported_missingKey _))
      | key name =>
        simp only [item]
        split
        · exact .ok _
        · exact .ok _
        · exact .error (.inl (Fault.reported_missingKey _))
    all_goals first
      | exact .ok _
      | cases hitems

end Object

end Reflection

namespace Name

open Reflection (Object Index)

/-! ## Layouts -/

namespace Layout

theorem readSeparator_fault (t : Text) : FailsOnly Fault.Reported (readSeparator t) := by
  unfold readSeparator
  dsimp only
  split
  · exact .error (Fault.reported_pattern _)
  · split
    · exact .error (Fault.reported_pattern _)
    · exact .ok _

theorem readPrecision_fault (t : Text) : FailsOnly Fault.Reported (readPrecision t) := by
  unfold readPrecision
  split
  · split
    · exact .error (Fault.reported_pattern _)
    · split
      · exact .error (Fault.reported_pattern _)
      · exact .ok _
  · exact .ok _

theorem read_fault (target : Target) (t : Text) : FailsOnly Fault.Reported (read target t) := by
  unfold read
  dsimp only
  refine .ite (.throw (Fault.reported_pattern _)) ?_
  refine (readSeparator_fault _).bind fun separator _ => (readPrecision_fault _).bind fun precision _ => ?_
  -- the code is given or the standard one; either way only the separator is still checked
  split
  case h_3 => exact .throw (Fault.reported_pattern _)
  all_goals
    rw [pure_bind]
    split
    · exact .ite (.throw (Fault.reported_pattern _)) (.ok _)
    · exact .ok _

theorem padded_fault (l : Layout) (left : Nat → Nat) (shown : Text) :
    FailsOnly (· = .outOfMemory) (l.padded left shown) := by
  unfold padded
  dsimp only
  split
  · exact .error rfl
  · exact .ok _

theorem applyText_fault (l : Layout) (t : Text) :
    FailsOnly (fun fault => fault.Reported ∨ fault = .outOfMemory) (l.applyText t) := by
  have hpattern : ∀ cause, FailsOnly (fun fault => fault.Reported ∨ fault = .outOfMemory)
      (.error (.pattern cause) : Except Fault Text) := fun cause => .error (.inl (Fault.reported_pattern cause))
  unfold applyText
  refine .ite (hpattern _) (.ite (hpattern _) (.ite (hpattern _) (.ite (hpattern _) (.ite (hpattern _) ?_))))
  exact .ite (hpattern _) ((padded_fault l _ _).imp fun _ => .inr)

theorem applyDigits_fault (l : Layout) (lead digits rest : Text) :
    FailsOnly (· = .outOfMemory) (l.applyDigits lead digits rest) := by
  unfold applyDigits
  dsimp only
  split
  · exact .error rfl
  · split
    · exact .ok _
    · exact padded_fault l _ _

theorem applyExponent_fault (l : Layout) (mark : Nat) (trim : Bool) (n places : Nat) :
    FailsOnly (· = .outOfMemory) (l.applyExponent mark trim n places) := by
  unfold applyExponent
  exact applyDigits_fault l _ _ _

theorem applyFraction_fault (l : Layout) (n : Nat) : FailsOnly (· = .outOfMemory) (l.applyFraction n) := by
  unfold applyFraction
  dsimp only
  refine .ite (.error rfl) (.ite (applyExponent_fault l _ _ _ _) (.ite (applyDigits_fault l _ _ _) ?_))
  exact .ite (applyDigits_fault l _ _ _) (.ite (applyExponent_fault l _ _ _ _) (applyDigits_fault l _ _ _))

/-- a layout shows a number as the character that it stands for -/
def AsCharacter (l : Layout) : Prop :=
  l.code = 99 ∧ l.precision = none ∧ l.negativeZero = false ∧ l.sign = none ∧ l.alternate = false

/-- a fault of laying out a number -/
def WholeFault (l : Layout) (n : Nat) (fault : Fault) : Prop :=
  fault.Reported ∨ fault = .outOfMemory ∨ fault = .noCharacter ∧ l.AsCharacter ∧ 0x110000 ≤ n

theorem applyBase_fault (l : Layout) (n : Nat) : FailsOnly (l.WholeFault n) (l.applyBase n) := by
  have hpattern : ∀ cause, FailsOnly (l.WholeFault n) (.error (.pattern cause) : Except Fault Text) :=
    fun cause => .error (.inl (Fault.reported_pattern cause))
  have hdigits : ∀ lead digits rest, FailsOnly (l.WholeFault n) (l.applyDigits lead digits rest) :=
    fun _ _ _ => (applyDigits_fault l _ _ _).imp fun _ h => .inr (.inl h)
  unfold applyBase
  dsimp only
  split
  · exact hpattern _
  · next hprecision =>
    split
    · exact hpattern _
    · next hzero =>
      split
      · next hcode =>
        split
        · exact hpattern _
        · next hsign =>
          split
          · exact hpattern _
          · next halternate =>
            have hcharacter : l.AsCharacter :=
              ⟨hcode, Option.not_isSome_iff_eq_none.1 hprecision, eq_false_of_ne_true hzero,
                Option.not_isSome_iff_eq_none.1 hsign, eq_false_of_ne_true halternate⟩
            split
            · next hn => exact .error (.inr (.inr ⟨rfl, hcharacter, hn⟩))
            · exact hdigits _ _ _
      · refine .ite (hdigits _ _ _) (.ite (hdigits _ _ _) (.ite (hdigits _ _ _) ?_))
        exact .ite (hdigits _ _ _) (hdigits _ _ _)

theorem applyWhole_fault (l : Layout) (n : Nat) : FailsOnly (l.WholeFault n) (l.applyWhole n) := by
  unfold applyWhole
  refine .ite (applyBase_fault l n) (.ite ?_ (.error (.inl (Fault.reported_pattern _))))
  exact (applyFraction_fault l n).imp fun _ h => .inr (.inl h)

theorem AsCharacter.applyWhole_eq {l : Layout} (h : l.AsCharacter) {n : Nat} (hn : 0x110000 ≤ n) :
    l.applyWhole n = .error .noCharacter := by
  obtain ⟨hcode, hprecision, hzero, hsign, halternate⟩ := h
  have hbase : (Text.ofString "bcdnoxX").contains 99 = true := by decide
  simp only [applyWhole, hcode, hbase, if_true, applyBase, hprecision, hzero, hsign, halternate, hn]
  rfl

end Layout

namespace Pattern

/-- a layout that does not fit an object, with the fault of laying the object out -/
inductive Misfit (layout : Text) : Object → Fault → Prop
  | object {o : Object} (hlayout : layout ≠ []) (htext : ∀ t, o ≠ .text t) (hwhole : ∀ n, o ≠ .whole n) :
      Misfit layout o .wrongType
  | character {n : Nat} {l : Layout} (hlayout : layout ≠ []) (hl : Layout.read .whole layout = .ok l)
      (hcharacter : l.AsCharacter) (hn : 0x110000 ≤ n) : Misfit layout (.whole n) .noCharacter

theorem Misfit.layOut_eq {layout : Text} {o : Object} {fault : Fault} (h : Misfit layout o fault) :
    layOut layout o = .error fault := by
  cases h with
  | object hlayout htext hwhole =>
    rw [layOut, if_neg (mt List.isEmpty_iff.1 hlayout)]
    · exact htext
    · exact hwhole
  | character hlayout hl hcharacter hn =>
    rw [layOut, if_neg (mt List.isEmpty_iff.1 hlayout)]
    simp only [hl]
    exact hcharacter.applyWhole_eq hn

theorem layOut_fault (layout : Text) (o : Object) :
    FailsOnly (fun fault => fault.Reported ∨ fault = .outOfMemory ∨ Misfit layout o fault) (layOut layout o) := by
  unfold layOut
  split
  · exact .ok _
  · next hempty =>
    have hlayout : layout ≠ [] := mt List.isEmpty_iff.2 hempty
    split
    · refine ((Layout.read_fault .text layout).imp fun _ => .inl).bind fun l _ => ?_
      exact (Layout.applyText_fault l _).imp fun _ => Or.imp_right .inl
    · refine ((Layout.read_fault .whole layout).imp fun _ => .inl).bind fun l hl => ?_
      refine (Layout.applyWhole_fault l _).imp fun fault h => ?_
      rcases h with h | h | ⟨rfl, hcharacter, hn⟩
      · exact .inl h
      · exact .inr (.inl h)
      · exact .inr (.inr (.character hlayout hl hcharacter hn))
    · next htext hwhole => exact .error (.inr (.inr (.object hlayout htext hwhole)))

/-! ## Values -/

/-- a walk comes to an item of an object that has none -/
def Breaks (parts : List Part) (o : Object) : Prop :=
  ∃ before index after p,
    parts = before ++ .item index :: after ∧ walk before o = .ok p ∧ p.hasItems index = false

theorem Breaks.walk_eq {parts : List Part} {o : Object} (h : Breaks parts o) : walk parts o = .error .wrongType := by
  obtain ⟨before, index, after, p, rfl, hp, hitems⟩ := h
  have hnext : walk (.item index :: after) p = .error .wrongType :=
    except_bind_error.2 (.inl (Object.item_of_none hitems))
  rw [walk_append, hp]
  exact hnext

theorem walk_fault (parts : List Part) (o : Object) :
    FailsOnly (fun fault => fault.Reported ∨ fault = .wrongType ∧ Breaks parts o) (walk parts o) := by
  induction parts generalizing o with
  | nil => exact .ok _
  | cons part rest ih =>
    rw [walk_cons]
    refine .bind ?_ fun p hp => (ih p).imp fun fault => Or.imp_right fun ⟨hfault, hbreaks⟩ => ⟨hfault, ?_⟩
    · cases part with
      | member name => exact (Object.member_fault name o).imp fun _ => .inl
      | item index =>
        refine (Object.item_fault index o).imp fun fault => Or.imp_right fun ⟨hfault, hitems⟩ => ?_
        exact ⟨hfault, [], index, rest, o, rfl, rfl, hitems⟩
    · obtain ⟨before, index, after, q, rfl, hq, hitems⟩ := hbreaks
      refine ⟨part :: before, index, after, q, rfl, ?_, hitems⟩
      rw [walk_cons, hp]
      exact hq

theorem ending_fault {ρ : Type} (fault : Option PatternFault) (a : ρ) :
    FailsOnly Fault.Reported (ending fault a) := by
  cases fault with
  | none => exact .ok _
  | some cause => exact .error (Fault.reported_pattern cause)

/-- the name of a field comes to an item of an object that has none -/
def NoItems (name : Text) (f : Field) : Prop :=
  ∃ spelling, spelling? name (labelOf f.name) = some spelling ∧ Breaks (readParts f.name).1 (.text spelling)

theorem NoItems.valueOf_eq {name : Text} {f : Field} (h : NoItems name f) : valueOf name f = .error .wrongType := by
  obtain ⟨spelling, hspelling, hbreaks⟩ := h
  rw [valueOf, object_eq hspelling, hbreaks.walk_eq]
  rfl

theorem wholeNumber_fault (t : Text) : FailsOnly Fault.Reported (wholeNumber t) := by
  intro fault h
  rw [wholeNumber_error h]
  exact Fault.reported_pattern _

theorem object_unknown {name fieldName : Text} (h : spelling? name (labelOf fieldName) = none) :
    FailsOnly Fault.Reported (object name fieldName) := by
  unfold labelOf at h
  unfold object
  dsimp only
  refine (wholeNumber_fault _).bind fun number _ => ?_
  cases number with
  | some index => exact .error (Fault.reported_index _)
  | none =>
    refine .ite (.throw (Fault.reported_index _)) ?_
    rw [h]
    exact .error (Fault.reported_missingKey _)

theorem convert_fault (conversion : Option Nat) (o : Object) : FailsOnly Fault.Reported (convert conversion o) := by
  cases conversion with
  | none => exact .ok _
  | some c =>
    refine .ite (.ok _) (.ite (.ok _) (.ite (.ok _) (.ite ?_ (.error (Fault.reported_pattern _)))))
    split <;> exact .ok _

theorem valueOf_fault (name : Text) (f : Field) :
    FailsOnly (fun fault => fault.Reported ∨ fault = .wrongType ∧ NoItems name f) (valueOf name f) := by
  refine .bind ?_ fun o _ => (convert_fault f.conversion o).imp fun _ => .inl
  cases hspelling : spelling? name (labelOf f.name) with
  | none => exact (object_unknown hspelling).imp fun _ => .inl
  | some spelling =>
    rw [object_eq hspelling]
    refine .bind ?_ fun o _ => (ending_fault _ o).imp fun _ => .inl
    refine (walk_fault _ _).imp fun fault => Or.imp_right fun ⟨hfault, hbreaks⟩ => ?_
    exact ⟨hfault, spelling, hspelling, hbreaks⟩

/-! ## Patterns -/

/-- the fields of a pattern up to one of them have texts -/
def Reaches (name : Text) (depth : Nat) (t : Text) (f : Field) : Prop :=
  ∃ before after, fieldsOf t = before ++ f :: after ∧ ∀ g ∈ before, ∃ shown, fieldText name depth g = .ok shown

/-- filling in a pattern comes to something that is not reported, with its fault -/
inductive Escapes (name : Text) : Nat → Text → Fault → Prop
  | items {depth : Nat} {t : Text} {f : Field} (hf : Reaches name depth t f) (h : NoItems name f) :
      Escapes name (depth + 1) t .wrongType
  | nested {depth : Nat} {t : Text} {f : Field} {o : Object} {fault : Fault} (hf : Reaches name depth t f)
      (ho : valueOf name f = .ok o) (hn : f.nested = true) (h : Escapes name depth f.layout fault) :
      Escapes name (depth + 1) t fault
  | layout {depth : Nat} {t : Text} {f : Field} {o : Object} {layout : Text} {fault : Fault}
      (hf : Reaches name depth t f) (ho : valueOf name f = .ok o) (hl : layoutOf name depth f = .ok layout)
      (h : Misfit layout o fault) : Escapes name (depth + 1) t fault

theorem Reaches.fillAt_error {name : Text} {depth : Nat} {t : Text} {f : Field} {fault : Fault}
    (hf : Reaches name depth t f) (h : fieldText name depth f = .error fault) :
    fillAt name (depth + 1) t = .error fault := by
  obtain ⟨before, after, hfields, hbefore⟩ := hf
  exact Pattern.fillAt_error.2 (.inl (mapM_eq_error.2 ⟨before, f, after, hfields, hbefore, h⟩))

theorem Escapes.fillAt_eq {name : Text} {depth : Nat} {t : Text} {fault : Fault} (h : Escapes name depth t fault) :
    fillAt name depth t = .error fault := by
  induction h with
  | items hf h => exact hf.fillAt_error (except_bind_error.2 (.inl h.valueOf_eq))
  | nested hf ho hn _ ih =>
    refine hf.fillAt_error (except_bind_error.2 (.inr ⟨_, ho, except_bind_error.2 (.inl ?_)⟩))
    rw [layoutOf, if_pos hn]
    exact ih
  | layout hf ho hl h =>
    refine hf.fillAt_error (except_bind_error.2 (.inr ⟨_, ho, except_bind_error.2 (.inr ⟨_, hl, ?_⟩)⟩))
    exact h.layOut_eq

theorem fieldText_fault {name : Text} {depth : Nat} {t : Text} {f : Field} (hf : Reaches name depth t f)
    (hnested : FailsOnly (fun fault => fault.Reported ∨ fault = .outOfMemory ∨ Escapes name depth f.layout fault)
      (fillAt name depth f.layout)) :
    FailsOnly (fun fault => fault.Reported ∨ fault = .outOfMemory ∨ Escapes name (depth + 1) t fault)
      (fieldText name depth f) := by
  refine .bind ?_ fun o ho => .bind ?_ fun layout hl => ?_
  · refine (valueOf_fault name f).imp fun fault => Or.imp_right fun ⟨hfault, h⟩ => .inr ?_
    rw [hfault]
    exact .items hf h
  · unfold layoutOf
    split
    · next hn => exact hnested.imp fun _ => Or.imp_right (Or.imp_right fun h => .nested hf ho hn h)
    · exact .ok _
  · exact (layOut_fault layout o).imp fun _ => Or.imp_right (Or.imp_right fun h => .layout hf ho hl h)

/-- **Filling in a pattern fails with a fault that is reported, for lack of memory, or because it escapes.** -/
theorem fillAt_fault (name : Text) (depth : Nat) (t : Text) :
    FailsOnly (fun fault => fault.Reported ∨ fault = .outOfMemory ∨ Escapes name depth t fault)
      (fillAt name depth t) := by
  induction depth generalizing t with
  | zero => exact .error (.inl (Fault.reported_pattern _))
  | succ depth ih =>
    intro fault h
    rcases fillAt_error.1 h with h | ⟨_, cause, _, rfl⟩
    · obtain ⟨before, f, after, hfields, hbefore, hf⟩ := mapM_eq_error.1 h
      exact fieldText_fault ⟨before, after, hfields, hbefore⟩ (ih f.layout) fault hf
    · exact .inl (Fault.reported_pattern cause)

end Pattern

end Name

namespace Command

open Name.Pattern (Escapes fill fillAt_fault)

/-- a text gives a command a pattern for one of its roles: the label, then the first equals sign, then the pattern -/
structure Gives (kind : Kind) (raw role pattern : Text) : Prop where
  split : ∃ before, raw = before ++ 61 :: pattern ∧ 61 ∉ before ∧ role = Text.strip before
  known : role ∈ (roles kind).map (·.label)
  filled : pattern ≠ []

/-- a text for a command is taken as the role and the pattern that it gives, or reported in the settings -/
inductive Checked (kind : Kind) (raw : Text) : Except Fault (Text × Text) → Prop
  | taken {role pattern : Text} (h : Gives kind raw role pattern) : Checked kind raw (.ok (role, pattern))
  | malformed (message suggestion : Text) :
      Checked kind raw (.error (configFault .invalidNameOverride message suggestion))
  | unknownRole (message suggestion : Text) :
      Checked kind raw (.error (configFault .unknownNameRole message suggestion))

theorem labels_filled : ∀ kind, ∀ label ∈ (roles kind).map (·.label), label ≠ [] := by
  intro kind
  cases kind <;> decide

theorem Gives.check_eq {kind : Kind} {raw role pattern : Text} (h : Gives kind raw role pattern) :
    checkOverride kind raw = do
      tryPattern role pattern
      return (role, pattern) := by
  obtain ⟨before, hraw, hbefore, hrole⟩ := h.split
  have hfilled : ((Text.strip before).isEmpty || pattern.isEmpty) = false := by
    rw [Bool.or_eq_false_iff, List.isEmpty_eq_false_iff, List.isEmpty_eq_false_iff]
    exact ⟨labels_filled kind _ (hrole ▸ h.known), h.filled⟩
  have hsplit : splitOverride raw = .ok (role, pattern) := by
    rw [splitOverride, Text.cut?_eq_some.2 ⟨hraw, hbefore⟩]
    simp only [hfilled, hrole]
    rfl
  have hknown : ((roles kind).map (·.label)).contains role = true := List.contains_iff_mem.2 h.known
  rw [checkOverride, hsplit]
  simp only [bind, Except.bind, hknown]
  rfl

/-- a text is reported as it stands, or it gives a pattern -/
theorem checked_or_gives (kind : Kind) (raw : Text) :
    Checked kind raw (checkOverride kind raw) ∨ ∃ role pattern, Gives kind raw role pattern := by
  unfold checkOverride splitOverride
  cases hcut : Text.cut? 61 raw with
  | none => exact .inl (.malformed _ _)
  | some cut =>
    obtain ⟨before, pattern⟩ := cut
    obtain ⟨hraw, hbefore⟩ := Text.cut?_eq_some.1 hcut
    dsimp only
    by_cases hempty : ((Text.strip before).isEmpty || pattern.isEmpty) = true
    · rw [if_pos hempty]
      exact .inl (.malformed _ _)
    · rw [if_neg hempty]
      by_cases hknown : ((roles kind).map (·.label)).contains (Text.strip before) = true
      · refine .inr ⟨_, pattern, ⟨before, hraw, hbefore, rfl⟩, List.contains_iff_mem.1 hknown, fun hpattern => ?_⟩
        simp [hpattern] at hempty
      · refine .inl ?_
        simp only [bind, Except.bind, hknown]
        exact .unknownRole _ _

theorem patternFault_reported {fault : Fault} (h : fault.Reported) (role pattern : Text) :
    ∃ message suggestion, patternFault role pattern fault = configFault .invalidNameOverride message suggestion := by
  unfold Fault.Reported at h
  unfold patternFault
  split
  case h_4 => exact ⟨_, _, rfl⟩
  all_goals
    next hfamily =>
      rw [hfamily] at h
      simp at h

/-- a fault that is passed on -/
def PassedOn (fault : Fault) : Prop := fault = .wrongType ∨ fault = .noCharacter ∨ fault = .outOfMemory

theorem PassedOn.patternFault_eq {fault : Fault} (h : PassedOn fault) (role pattern : Text) :
    patternFault role pattern fault = fault := by
  rcases h with rfl | rfl | rfl <;> rfl

theorem PassedOn.not_checked {fault : Fault} (h : PassedOn fault) (kind : Kind) (raw : Text) :
    ¬ Checked kind raw (.error fault) := by
  intro hc
  rcases h with rfl | rfl | rfl <;> cases hc

theorem passedOn_of_escapes {name t : Text} {depth : Nat} {fault : Fault} (h : Escapes name depth t fault) :
    PassedOn fault := by
  induction h with
  | items _ _ => exact .inl rfl
  | nested _ _ _ _ ih => exact ih
  | layout _ _ _ h =>
    cases h with
    | object _ _ _ => exact .inl rfl
    | character _ _ _ _ => exact .inr (.inl rfl)

theorem Gives.passes_on {kind : Kind} {raw role pattern : Text} (h : Gives kind raw role pattern) {fault : Fault}
    (hfill : fill pattern sampleName = .error fault) (hfault : PassedOn fault) :
    checkOverride kind raw = .error fault := by
  rw [h.check_eq, tryPattern, hfill]
  exact congrArg _ (hfault.patternFault_eq role pattern)

/-- a text that gives a pattern is checked by filling it in for the sample name -/
theorem Gives.checked_of_fill {kind : Kind} {raw role pattern : Text} (h : Gives kind raw role pattern)
    (hfill : ∀ fault, fill pattern sampleName = .error fault → fault.Reported) :
    Checked kind raw (checkOverride kind raw) := by
  rw [h.check_eq, tryPattern]
  cases htry : fill pattern sampleName with
  | ok filled => exact .taken h
  | error fault =>
    obtain ⟨message, suggestion, hreport⟩ := patternFault_reported (hfill fault htry) role pattern
    dsimp only
    rw [hreport]
    exact .malformed message suggestion

/-- **A setting for a name is taken or reported** exactly if the memory holds its pattern filled in for the sample name
and filling it in does not escape; if it escapes, checking the setting fails with the same fault. -/
theorem overrides_checked (kind : Kind) (raw : Text) :
    (Checked kind raw (checkOverride kind raw) ↔
      ∀ role pattern, Gives kind raw role pattern →
        fill pattern sampleName ≠ .error .outOfMemory ∧ ∀ fault, ¬ Escapes sampleName 2 pattern fault) ∧
      ∀ role pattern fault, Gives kind raw role pattern → Escapes sampleName 2 pattern fault →
        checkOverride kind raw = .error fault := by
  refine ⟨⟨fun h role pattern hgives => ⟨fun hfill => ?_, fun fault he => ?_⟩, fun h => ?_⟩, ?_⟩
  · have hmemory : PassedOn .outOfMemory := .inr (.inr rfl)
    rw [hgives.passes_on hfill hmemory] at h
    exact hmemory.not_checked kind raw h
  · rw [hgives.passes_on he.fillAt_eq (passedOn_of_escapes he)] at h
    exact (passedOn_of_escapes he).not_checked kind raw h
  · rcases checked_or_gives kind raw with hchecked | ⟨role, pattern, hgives⟩
    · exact hchecked
    · obtain ⟨hmemory, hescapes⟩ := h role pattern hgives
      refine hgives.checked_of_fill fun fault hfault => ?_
      rcases fillAt_fault sampleName 2 pattern fault hfault with hreported | rfl | he
      · exact hreported
      · exact absurd hfault hmemory
      · exact absurd he (hescapes fault)
  · exact fun role pattern fault hgives he => hgives.passes_on he.fillAt_eq (passedOn_of_escapes he)

/-- a pattern that lays out a member as if it were a text -/
def stretched : Text := "\x7bname.upper:>9\x7d"

/-- a setting with it -/
def stretchedHook : Text := "accountHook=" ++ stretched

def isFunction : Reflection.Object → Bool
  | .builtin _ _ => true
  | _ => false

theorem stretched_passed_on :
    Gives .hooks stretchedHook "accountHook" stretched ∧ Escapes sampleName 2 stretched .wrongType ∧
      checkOverride .hooks stretchedHook = .error .wrongType := by
  have hgives : Gives .hooks stretchedHook "accountHook" stretched :=
    ⟨⟨Text.ofString "accountHook", rfl, by decide, by decide⟩, by decide, by decide⟩
  have hfunction : (Name.Pattern.valueOf sampleName ⟨"name.upper", none, ">9", false⟩).toOption.any isFunction = true := by
    decide
  obtain ⟨o, ho, hfunction⟩ := any_toOption.1 hfunction
  have hmisfit : Name.Pattern.Misfit ">9" o .wrongType :=
    .object (by decide) (fun _ h => by simp [h, isFunction] at hfunction) fun _ h => by simp [h, isFunction] at hfunction
  have hescapes : Escapes sampleName 2 stretched .wrongType :=
    .layout ⟨[], [], by decide, fun _ h => absurd h List.not_mem_nil⟩ ho rfl hmisfit
  exact ⟨hgives, hescapes, (overrides_checked .hooks stretchedHook).2 _ _ _ hgives hescapes⟩

/-- a pattern that takes an item by a word -/
def worded : Text := "\x7bname[x]\x7d"

/-- an item of a text that is taken by a word is neither taken nor reported -/
theorem word_index_escapes :
    checkOverride .hooks ("accountHook=" ++ worded) = .error .wrongType ∧
      ¬ Checked .hooks ("accountHook=" ++ worded) (checkOverride .hooks ("accountHook=" ++ worded)) := by
  have hgives : Gives .hooks ("accountHook=" ++ worded) "accountHook" worded :=
    ⟨⟨Text.ofString "accountHook", rfl, by decide, by decide⟩, by decide, by decide⟩
  have hitems : Name.Pattern.NoItems sampleName ⟨Text.ofString "name[x]", none, [], false⟩ :=
    ⟨sampleName, by decide, [], .key "x", [], .text sampleName, by decide, rfl, rfl⟩
  have hescapes : Escapes sampleName 2 worded .wrongType :=
    .items ⟨[], [], by decide, fun _ h => absurd h List.not_mem_nil⟩ hitems
  have hcheck := hgives.passes_on hescapes.fillAt_eq (.inl rfl)
  refine ⟨hcheck, ?_⟩
  rw [hcheck]
  exact PassedOn.not_checked (.inl rfl) .hooks _

end Command

end InterfacePages
