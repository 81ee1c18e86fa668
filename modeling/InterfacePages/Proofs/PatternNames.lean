/-
Patterns across names.

A pattern is tried on one name. What its fields come to for another name has the same form: a text where there was a
text, the same number where there was a number (`walk_alike`, `valueOf_alike`). Two things can still go wrong: a letter
that is taken by place is not there in a shorter spelling, and a layout with fields of its own, filled in for the other
name, may be none that the value takes. `Suits` says that neither happens, and so an accepted pattern works for exactly
the names that suit it (`accepted_pattern_works`); one without places and such layouts suits every name
(`suits_of_plain`).
-/
import InterfacePages.Proofs.PatternFaults

namespace InterfacePages

namespace Name

open Reflection (Object Index Member)

namespace Pattern

/-! ## Objects for two names -/

/-- what parts come to for two spellings: the spellings themselves, letters of them, functions and operations bound to
such, or the same object -/
inductive Alike (s s' : Text) : Object → Object → Prop
  | spelling : Alike s s' (.text s) (.text s')
  | letter (c c' : Nat) : Alike s s' (.text [c]) (.text [c'])
  | same (o : Object) : Alike s s' o o
  | builtin (m : Member) {o o' : Object} (h : Alike s s' o o') : Alike s s' (.builtin m o) (.builtin m o')
  | boundSlot (owner : Reflection.Class) (m : Member) {o o' : Object} (h : Alike s s' o o') :
      Alike s s' (.boundSlot owner m o) (.boundSlot owner m o')

variable {s s' : Text}

theorem Alike.classOf_eq {o o' : Object} (h : Alike s s' o o') : o.classOf = o'.classOf := by
  cases h <;> rfl

theorem Alike.qualifiedName_eq {o o' : Object} (h : Alike s s' o o') (m : Member) :
    Object.qualifiedName m o = Object.qualifiedName m o' := by
  cases h <;> rfl

theorem Alike.boundTo {o o' : Object} (h : Alike s s' o o') (m : Member) :
    Alike s s' (Object.boundTo m o) (Object.boundTo m o') := by
  cases m with
  | static _ _ _ => exact .same _
  | _ => exact h

theorem Alike.lookup {own own' : List (Text × Object)}
    (h : List.Forall₂ (fun e e' => e.1 = e'.1 ∧ Alike s s' e.2 e'.2) own own') {name : Text} {p : Object}
    (hp : own.lookup name = some p) : ∃ p', own'.lookup name = some p' ∧ Alike s s' p p' := by
  induction h with
  | nil => cases hp
  | @cons e e' own own' he _ ih =>
    obtain ⟨key, v⟩ := e
    obtain ⟨key', v'⟩ := e'
    obtain ⟨rfl, hv⟩ := he
    rw [List.lookup_cons] at hp ⊢
    cases hkey : name == key with
    | true =>
      rw [hkey] at hp
      cases hp
      exact ⟨v', rfl, hv⟩
    | false =>
      rw [hkey] at hp
      exact ih hp

theorem Alike.memberValue {own own' : List (Text × Object)}
    (h : List.Forall₂ (fun e e' => e.1 = e'.1 ∧ Alike s s' e.2 e'.2) own own') {m : Member} {name : Text} {p : Object}
    (hp : Object.memberValue? m own name = some p) :
    ∃ p', Object.memberValue? m own' name = some p' ∧ Alike s s' p p' := by
  refine Alike.lookup ?_ hp
  exact .cons ⟨rfl, .same _⟩ (.cons ⟨rfl, .same _⟩ (.cons ⟨rfl, .same _⟩ h))

/-- alike objects have alike values under a name -/
theorem Alike.value {o o' p : Object} (h : Alike s s' o o') {name : Text} (hp : o.value? name = some p) :
    ∃ p', o'.value? name = some p' ∧ Alike s s' p p' := by
  unfold Object.value? at hp ⊢
  by_cases hname : name = Text.ofString "__class__"
  · rw [if_pos hname] at hp ⊢
    cases hp
    exact ⟨_, rfl, h.classOf_eq ▸ .same _⟩
  · rw [if_neg hname] at hp ⊢
    cases h with
    | same o => exact ⟨p, hp, .same p⟩
    | spelling => cases hp
    | letter c c' => cases hp
    | builtin m h =>
      refine Alike.memberValue ?_ hp
      exact .cons ⟨rfl, h.qualifiedName_eq m ▸ .same _⟩ (.cons ⟨rfl, h.boundTo m⟩ (.cons ⟨rfl, .same _⟩ .nil))
    | boundSlot owner m h =>
      refine Alike.memberValue ?_ hp
      exact .cons ⟨rfl, .same _⟩ (.cons ⟨rfl, h⟩ (.cons ⟨rfl, .same _⟩ .nil))

/-- a member that is found comes alike with alike objects -/
theorem Alike.bound {o o' p : Object} (h : Alike s s' o o') {owner : Reflection.Class} {m : Member}
    (hp : Object.bound owner m o = .ok p) : ∃ p', Object.bound owner m o' = .ok p' ∧ Alike s s' p p' := by
  cases m with
  | maker | static _ _ _ | constant _ _ =>
    cases hp
    exact ⟨_, rfl, .same _⟩
  | slot _ =>
    cases hp
    exact ⟨_, rfl, .boundSlot owner _ h⟩
  | method _ _ _ =>
    cases hp
    exact ⟨_, rfl, .builtin _ h⟩
  | ofClass _ _ _ =>
    cases hp
    exact ⟨_, rfl, h.classOf_eq ▸ .same _⟩
  | computed name _ | stored name =>
    simp only [Object.bound] at hp ⊢
    split at hp
    · next v hv =>
      cases hp
      obtain ⟨v', hv', h⟩ := h.value hv
      rw [hv']
      exact ⟨v', rfl, h⟩
    · cases hp

theorem Alike.member {o o' p : Object} (h : Alike s s' o o') {name : Text} (hp : o.member name = .ok p) :
    ∃ p', o'.member name = .ok p' ∧ Alike s s' p p' := by
  -- the class of both objects is asked for the member, and what it finds is bound to either
  have hfind : o'.classOf.find? name = o.classOf.find? name := h.classOf_eq ▸ rfl
  have hbound : ∀ {owner m}, Object.bound owner m o = .ok p →
      ∃ p', Object.bound owner m o' = .ok p' ∧ Alike s s' p p' := h.bound
  cases hfound : o.classOf.find? name with
  | none =>
    cases h with
    | same o => exact ⟨p, hp, .same p⟩
    | _ =>
      simp only [Object.member, hfound] at hp
      cases hp
  | some found =>
    rw [hfound] at hfind
    cases h with
    | same o => exact ⟨p, hp, .same p⟩
    | _ =>
      simp only [Object.member, hfound, hfind] at hp ⊢
      exact hbound hp

/-- an item is there for both of two alike objects, unless it is a letter that the second spelling does not have -/
theorem Alike.item {o o' p : Object} (h : Alike s s' o o') {index : Index} (hp : o.item index = .ok p)
    (hplace : o' = .text s' → ∀ k, index = .place k → k < s'.length) :
    ∃ p', o'.item index = .ok p' ∧ Alike s s' p p' := by
  cases h with
  | same o => exact ⟨p, hp, .same p⟩
  | builtin m h => cases hp
  | boundSlot owner m h => cases hp
  | spelling =>
    cases index with
    | key t => cases hp
    | place k =>
      simp only [Object.item] at hp ⊢
      rw [List.getElem?_eq_getElem (hplace rfl k rfl)]
      split at hp
      · cases hp
        exact ⟨_, rfl, .letter _ _⟩
      · cases hp
  | letter c c' =>
    cases index with
    | key t => cases hp
    | place k =>
      cases k with
      | zero =>
        cases hp
        exact ⟨_, rfl, .letter c c'⟩
      | succ k => cases hp

/-! ## Walks for two names -/

/-- a walk from a spelling is back at it when it takes a letter by place -/
def TakesPlace (parts : List Part) (spelling : Text) (k : Nat) : Prop :=
  ∃ before after,
    parts = before ++ .item (.place k) :: after ∧ walk before (.text spelling) = .ok (.text spelling)

theorem TakesPlace.lt_length {parts : List Part} {k : Nat} {p : Object} (h : TakesPlace parts s k)
    (hp : walk parts (.text s) = .ok p) : k < s.length := by
  obtain ⟨before, after, rfl, hback⟩ := h
  rw [walk_append, hback] at hp
  obtain ⟨o, ho, _⟩ := except_bind_ok.1 (show Object.item (.place k) (.text s) >>= walk after = .ok p from hp)
  by_contra hk
  simp only [Object.item, List.getElem?_eq_none (Nat.le_of_not_lt hk)] at ho
  cases ho

/-- **Walks from two spellings lead to alike objects** as long as the second has the letters that are taken of it. -/
theorem walk_alike {done rest : List Part} {o o' p : Object} (h : Alike s s' o o')
    (hdone : walk done (.text s') = .ok o') (hp : walk rest o = .ok p)
    (hplaces : ∀ k, TakesPlace (done ++ rest) s' k → k < s'.length) :
    ∃ p', walk rest o' = .ok p' ∧ Alike s s' p p' := by
  induction rest generalizing done o o' with
  | nil =>
    cases hp
    exact ⟨o', rfl, h⟩
  | cons part rest ih =>
    obtain ⟨q, hq, hp⟩ := except_bind_ok.1 (walk_cons part rest o ▸ hp)
    have hstep : ∃ q', part.of o' = .ok q' ∧ Alike s s' q q' := by
      cases part with
      | member name => exact h.member hq
      | item index =>
        refine h.item hq fun hback k hk => hplaces k ⟨done, rest, ?_, hback ▸ hdone⟩
        rw [hk]
    obtain ⟨q', hq', hqq⟩ := hstep
    have hdone' : walk (done ++ [part]) (.text s') = .ok q' := by
      rw [walk_append, hdone]
      exact (walk_cons part [] o').trans (except_bind_ok.2 ⟨q', hq', rfl⟩)
    obtain ⟨p', hp', hpp⟩ := ih hqq hdone' hp (by simpa using hplaces)
    refine ⟨p', ?_, hpp⟩
    rw [walk_cons]
    exact except_bind_ok.2 ⟨q', hq', hp'⟩

/-! ## Fields for two names -/

/-- what counts about an object when it is laid out: that it is a text, which number it is, or that it is neither -/
inductive Form where
  | text
  | whole (n : Nat)
  | other
  deriving DecidableEq, Repr

def formOf : Object → Form
  | .text _ => .text
  | .whole n => .whole n
  | _ => .other

theorem Alike.formOf_eq {o o' : Object} (h : Alike s s' o o') : formOf o = formOf o' := by
  cases h <;> rfl

theorem convert_form {conversion : Option Nat} {o o' p : Object} (h : formOf o = formOf o')
    (hp : convert conversion o = .ok p) : ∃ p', convert conversion o' = .ok p' ∧ formOf p = formOf p' := by
  cases conversion with
  | none =>
    cases hp
    exact ⟨o', rfl, h⟩
  | some c =>
    unfold convert at hp ⊢
    dsimp only at hp ⊢
    split_ifs at hp ⊢
    · cases hp
      exact ⟨o', rfl, h⟩
    · cases hp
      exact ⟨_, rfl, rfl⟩
    · cases hp
      exact ⟨_, rfl, rfl⟩
    · have htext : formOf p = .text := by
        split at hp <;> cases hp <;> rfl
      rw [htext]
      split <;> exact ⟨_, rfl, rfl⟩

theorem object_ok {name fieldName : Text} {o : Object} :
    object name fieldName = .ok o ↔
      ∃ spelling, spelling? name (labelOf fieldName) = some spelling ∧ (readParts fieldName).2 = none ∧
        walk (readParts fieldName).1 (.text spelling) = .ok o := by
  cases hspelling : spelling? name (labelOf fieldName) with
  | none =>
    refine ⟨fun h => ?_, fun ⟨_, h, _⟩ => nomatch h⟩
    unfold labelOf at hspelling
    unfold object at h
    dsimp only at h
    obtain ⟨number, _, h⟩ := except_bind_ok.1 h
    cases number with
    | some index => cases h
    | none =>
      dsimp only at h
      split at h
      · cases h
      · rw [hspelling] at h
        cases h
  | some spelling =>
    rw [object_eq hspelling, except_bind_ok]
    constructor
    · rintro ⟨p, hp, h⟩
      cases hfault : (readParts fieldName).2 with
      | none =>
        rw [hfault] at h
        cases h
        exact ⟨spelling, rfl, rfl, hp⟩
      | some fault =>
        rw [hfault] at h
        cases h
    · rintro ⟨_, hsome, hfault, hp⟩
      cases hsome
      refine ⟨o, hp, ?_⟩
      rw [hfault]
      rfl

/-- the spelling that a field names has the letters that are taken of it by place -/
def HasPlaces (name : Text) (f : Field) : Prop :=
  ∀ spelling k, spelling? name (labelOf f.name) = some spelling → TakesPlace (readParts f.name).1 spelling k →
    k < spelling.length

theorem hasPlaces_of_value {name : Text} {f : Field} {o : Object} (h : valueOf name f = .ok o) : HasPlaces name f := by
  obtain ⟨p, hp, _⟩ := except_bind_ok.1 h
  obtain ⟨spelling, hspelling, _, hwalk⟩ := object_ok.1 hp
  intro spelling' k hspelling' hk
  cases hspelling.symm.trans hspelling'
  exact hk.lt_length hwalk

/-- **A field's value has the same form for two names** as long as the spelling of the second has its places. -/
theorem valueOf_form {name name' : Text} {f : Field} {o : Object} (h : valueOf name f = .ok o)
    (hplaces : HasPlaces name' f) : ∃ o', valueOf name' f = .ok o' ∧ formOf o = formOf o' := by
  obtain ⟨p, hp, hconvert⟩ := except_bind_ok.1 h
  obtain ⟨spelling, hspelling, hfault, hwalk⟩ := object_ok.1 hp
  have hlabel : (spelling? name' (labelOf f.name)).isSome = true := by
    rw [spelling?_isSome, ← spelling?_isSome name, hspelling]
    rfl
  obtain ⟨spelling', hspelling'⟩ := Option.isSome_iff_exists.1 hlabel
  obtain ⟨p', hwalk', hp'⟩ := walk_alike (.spelling : Alike spelling spelling' _ _) (walk_nil _) hwalk
    fun k hk => hplaces spelling' k hspelling' hk
  obtain ⟨o', ho', hform⟩ := convert_form hp'.formOf_eq hconvert
  exact ⟨o', except_bind_ok.2 ⟨p', object_ok.2 ⟨spelling', hspelling', hfault, hwalk'⟩, ho'⟩, hform⟩

theorem applyText_again {l : Layout} {t t' shown : Text} (h : l.applyText t = .ok shown) :
    FailsOnly (· = .outOfMemory) (l.applyText t') := by
  unfold Layout.applyText at h ⊢
  split_ifs at h ⊢
  exact Layout.padded_fault l _ _

theorem layOut_again {layout shown : Text} {o o' : Object} (h : layOut layout o = .ok shown)
    (hform : formOf o = formOf o') : FailsOnly (· = .outOfMemory) (layOut layout o') := by
  unfold layOut at h ⊢
  split at h
  · next hempty =>
    rw [if_pos hempty]
    exact .ok _
  · next hempty =>
    rw [if_neg hempty]
    split at h
    · next t =>
      obtain ⟨t', rfl⟩ : ∃ t', o' = .text t' := by
        cases o' <;> cases hform
        exact ⟨_, rfl⟩
      obtain ⟨l, hl, h⟩ := except_bind_ok.1 h
      simp only [hl]
      exact applyText_again h
    · next n =>
      obtain rfl : o' = .whole n := by
        cases o' <;> cases hform
        rfl
      dsimp only
      rw [h]
      exact .ok _
    · cases h

/-! ## Patterns for two names -/

/-- the value of a field takes the layout that is filled in for a name -/
def TakesLayout (name : Text) (depth : Nat) (f : Field) : Prop :=
  ∀ o layout, valueOf name f = .ok o → fillAt name depth f.layout = .ok layout →
    ∃ shown, layOut layout o = .ok shown

/-- a pattern suits a name: the letters that its fields take by place are there, and layouts with fields of their own
become layouts that the values take -/
def Suits (name : Text) : Nat → Text → Prop
  | 0, _ => True
  | depth + 1, t =>
    ∀ f ∈ fieldsOf t, HasPlaces name f ∧ (f.nested = true → Suits name depth f.layout ∧ TakesLayout name depth f)

/-- a pattern suits the names for which it works -/
theorem suits_of_fill {name : Text} {depth : Nat} {t : Text} (h : ∃ filled, fillAt name depth t = .ok filled) :
    Suits name depth t := by
  induction depth generalizing t with
  | zero => trivial
  | succ depth ih =>
    intro f hf
    obtain ⟨shown, hshown⟩ := (fillAt_ok.1 h).2 f hf
    obtain ⟨o, ho, hshown⟩ := except_bind_ok.1 hshown
    obtain ⟨layout, hlayout, hshown⟩ := except_bind_ok.1 hshown
    refine ⟨hasPlaces_of_value ho, fun hn => ?_⟩
    rw [layoutOf, if_pos hn] at hlayout
    refine ⟨ih ⟨layout, hlayout⟩, fun o' layout' ho' hlayout' => ⟨shown, ?_⟩⟩
    cases ho.symm.trans ho'
    cases hlayout.symm.trans hlayout'
    exact hshown

/-- a field that works for one name lacks nothing but memory for another that it suits -/
theorem fieldText_again {name name' : Text} {depth : Nat} {f : Field} {shown : Text}
    (h : fieldText name depth f = .ok shown) (hplaces : HasPlaces name' f)
    (hnested : f.nested = true →
      FailsOnly (· = .outOfMemory) (fillAt name' depth f.layout) ∧ TakesLayout name' depth f) :
    FailsOnly (· = .outOfMemory) (fieldText name' depth f) := by
  obtain ⟨o, ho, h⟩ := except_bind_ok.1 h
  obtain ⟨layout, hlayout, h⟩ := except_bind_ok.1 h
  obtain ⟨o', ho', hform⟩ := valueOf_form ho hplaces
  unfold fieldText
  rw [ho']
  cases hn : f.nested with
  | true =>
    obtain ⟨hfill, htakes⟩ := hnested hn
    rw [layoutOf, hn]
    refine FailsOnly.bind hfill fun layout' hlayout' => ?_
    obtain ⟨shown', hshown'⟩ := htakes o' layout' ho' hlayout'
    rw [hshown']
    exact .ok _
  | false =>
    rw [layoutOf, hn] at hlayout ⊢
    cases hlayout
    exact layOut_again h hform

/-- **A pattern that works for one name lacks nothing but memory for another that it suits.** -/
theorem fill_again {name name' : Text} {depth : Nat} {t : Text} (h : ∃ filled, fillAt name depth t = .ok filled)
    (hsuits : Suits name' depth t) : FailsOnly (· = .outOfMemory) (fillAt name' depth t) := by
  induction depth generalizing t with
  | zero =>
    obtain ⟨_, h⟩ := h
    cases h
  | succ depth ih =>
    obtain ⟨hwriting, hfields⟩ := fillAt_ok.1 h
    intro e he
    rcases fillAt_error.1 he with he | ⟨_, fault, hfault, _⟩
    · obtain ⟨before, f, after, heq, _, hf⟩ := mapM_eq_error.1 he
      have hmem : f ∈ fieldsOf t := heq ▸ List.mem_append_right _ List.mem_cons_self
      obtain ⟨shown, hshown⟩ := hfields f hmem
      obtain ⟨hplaces, hnested⟩ := hsuits f hmem
      refine fieldText_again hshown hplaces (fun hn => ⟨ih ?_ (hnested hn).1, (hnested hn).2⟩) e hf
      obtain ⟨_, _, hshown⟩ := except_bind_ok.1 hshown
      obtain ⟨layout, hlayout, _⟩ := except_bind_ok.1 hshown
      rw [layoutOf, if_pos hn] at hlayout
      exact ⟨layout, hlayout⟩
    · rw [hwriting] at hfault
      cases hfault

/-- a pattern that takes no letters by place and whose layouts have no fields suits every name -/
theorem suits_of_plain {t : Text}
    (h : ∀ f ∈ fieldsOf t, f.nested = false ∧ ∀ k, Part.item (.place k) ∉ (readParts f.name).1) (name : Text)
    (depth : Nat) : Suits name depth t := by
  cases depth with
  | zero => trivial
  | succ depth =>
    intro f hf
    obtain ⟨hn, hparts⟩ := h f hf
    refine ⟨fun spelling k _ ⟨before, after, hsplit, _⟩ => absurd ?_ (hparts k), fun hnested => ?_⟩
    · exact hsplit ▸ List.mem_append_right _ List.mem_cons_self
    · rw [hn] at hnested
      cases hnested

end Pattern

end Name

namespace Command

open Name.Pattern (Suits fill fill_again suits_of_fill)

theorem fill_of_checked {kind : Kind} {raw role pattern : Text} (h : checkOverride kind raw = .ok (role, pattern)) :
    ∃ filled, fill pattern sampleName = .ok filled := by
  unfold checkOverride at h
  obtain ⟨⟨label, given⟩, _, h⟩ := except_bind_ok.1 h
  dsimp only at h
  split at h
  · cases h
  · obtain ⟨_, htry, h⟩ := except_bind_ok.1 h
    cases h
    unfold tryPattern at htry
    cases hfill : fill pattern sampleName with
    | ok filled => exact ⟨filled, rfl⟩
    | error fault =>
      rw [hfill] at htry
      cases htry

/-- **An accepted pattern works for the names that suit it**, memory permitting, and for no others. -/
theorem accepted_pattern_works {kind : Kind} {raw role pattern : Text}
    (h : checkOverride kind raw = .ok (role, pattern)) (name : Text)
    (hmemory : fill pattern name ≠ .error .outOfMemory) :
    (∃ filled, fill pattern name = .ok filled) ↔ Suits name 2 pattern := by
  refine ⟨suits_of_fill, fun hsuits => exists_ok_iff.2 fun fault hfault => ?_⟩
  rw [fill_again (fill_of_checked h) hsuits fault hfault] at hfault
  exact hmemory hfault

/-- a pattern with the first letter of a name and its words -/
def initialled : Text := "use_\x7bname[0]\x7d_\x7bpascalCase\x7d"

theorem initialled_vault :
    checkOverride .hooks ("accountHook=" ++ initialled) = .ok (Text.ofString "accountHook", initialled) ∧
      fill initialled "vault" = .ok "use_v_Vault" ∧ Suits "vault" 2 initialled := by
  have hcheck : (checkOverride .hooks ("accountHook=" ++ initialled)).toOption.any
      (· == (Text.ofString "accountHook", initialled)) = true := by decide +kernel
  have hfill : (fill initialled "vault").toOption.any (· == Text.ofString "use_v_Vault") = true := by decide +kernel
  obtain ⟨given, hcheck, hgiven⟩ := any_toOption.1 hcheck
  obtain ⟨filled, hfill, hfilled⟩ := any_toOption.1 hfill
  obtain rfl := beq_iff_eq.1 hgiven
  obtain rfl := beq_iff_eq.1 hfilled
  refine ⟨hcheck, hfill, (accepted_pattern_works hcheck "vault" fun hmemory => ?_).1 ⟨_, hfill⟩⟩
  rw [hfill] at hmemory
  cases hmemory

/-- a pattern with the sixth letter of a name -/
def sixthLetter : Text := "\x7bname[5]\x7d"

/-- whether an outcome is that a letter is not there -/
def lacksLetter : Except Fault Text → Bool
  | .error (.index .textIndex) => true
  | _ => false

/-- a pattern is accepted and fails for a name of two letters -/
theorem sixth_letter_missing :
    checkOverride .hooks ("accountHook=" ++ sixthLetter) = .ok (Text.ofString "accountHook", sixthLetter) ∧
      fill sixthLetter "ab" = .error (.index .textIndex) := by
  have hcheck : (checkOverride .hooks ("accountHook=" ++ sixthLetter)).toOption.any
      (· == (Text.ofString "accountHook", sixthLetter)) = true := by decide +kernel
  have hfill : lacksLetter (fill sixthLetter "ab") = true := by decide +kernel
  obtain ⟨given, hcheck, hgiven⟩ := any_toOption.1 hcheck
  obtain rfl := beq_iff_eq.1 hgiven
  refine ⟨hcheck, ?_⟩
  unfold lacksLetter at hfill
  split at hfill
  · assumption
  · cases hfill

end Command

end InterfacePages
