/-
Wrappers for size, offset and padding leave no trace in the spelling of a type.

Every handler says the same of a node as of the node without the wrappers inside it, if that is so of what it visits
(`handlers_respect`), and a wrapper itself is spelled as what it holds, so by induction on the height of a type it is
spelled the same without any of its wrappers (`sameUnless_bare`). Two handlers look at nodes without visiting them. A struct
asks its fields for their names, which wrappers do not have; it then has no spelling. An enumeration asks its variants
whether they are empty, and does not look inside wrappers.

- `wrappers_leave_no_trace`: a type that shows no enumeration whose wrapped variants are all empty has one spelling with
  and without wrappers, and any type is spelled as what is inside its wrappers.
- `wrapped_variants_lose_quotes`: such an enumeration does not list its variants as literals.
-/
import Mathlib
import InterfacePages.Proofs.BareTypes
import InterfacePages.Proofs.TypeSpelling

namespace InterfacePages

/-! ## Falling short -/

/-- an outcome is the same as another, unless the other is a fault for a reason -/
def SameUnless {ρ : Type} (why : Prop) (x y : Except Fault ρ) : Prop := y = x ∨ why ∧ ∃ e, x = .error e

namespace SameUnless

variable {ρ τ ι : Type} {why : Prop} {x y : Except Fault ρ}

theorem refl (x : Except Fault ρ) : SameUnless why x x := .inl rfl

theorem bind (h : SameUnless why x y) {f g : ρ → Except Fault τ} (hn : ∀ a, x = .ok a → SameUnless why (f a) (g a)) :
    SameUnless why (x >>= f) (y >>= g) := by
  rcases h with rfl | ⟨hwhy, e, rfl⟩
  · cases y with
    | ok a => exact hn a rfl
    | error e => exact .refl _
  · exact .inr ⟨hwhy, e, rfl⟩

theorem after (x : Except Fault ρ) {f g : ρ → Except Fault τ} (hn : ∀ a, x = .ok a → SameUnless why (f a) (g a)) :
    SameUnless why (x >>= f) (x >>= g) :=
  (SameUnless.refl x).bind hn

theorem mapM {f g : ι → Except Fault ρ} {is : List ι} (h : ∀ i ∈ is, SameUnless why (f i) (g i)) :
    SameUnless why (is.mapM f) (is.mapM g) := by
  induction is with
  | nil => exact .refl _
  | cons i rest ih =>
    rw [List.mapM_cons, List.mapM_cons]
    refine (h i List.mem_cons_self).bind fun a _ => ?_
    exact (ih fun j hj => h j (List.mem_cons_of_mem _ hj)).bind fun as _ => .refl _

end SameUnless

/-! ## Handlers -/

namespace TypeText

open Node (isScalarEnum)

variable {why : Prop} {n : Node} {k : Kind} {a : Attr}

/-- what the spelling of a node without wrappers rests on -/
structure Prepared (why : Prop) (n : Node) : Prop where
  shown : ∀ m, n.Shows m → SameUnless why m.typeText m.bare.typeText
  nameless : ∀ m, n.Shows m → m.isWrapper = true → m.attr? .name = none
  fields : n.WrapsField → why
  variants : ¬ n.HidesEmpty

/-- removing wrappers inside a node of a kind does not change what a handler says of it -/
def Respects (why : Prop) (k : Kind) (h : Handler Outcome) : Prop :=
  ∀ n : Node, n.kind? = some k → Prepared why n → SameUnless why (h n Node.typeText) (h n.bareInside Node.typeText)

theorem types_shown : ∀ k : Kind, ∀ a ∈ k.shownAttrs, a.isLabel = false := by
  intro k
  cases k <;> decide

theorem Prepared.child (h : Prepared why n) (hk : n.kind? = some k) (ha : a ∈ k.shownAttrs) :
    SameUnless why (n.child a >>= Node.typeText) (n.bareInside.child a >>= Node.typeText) := by
  rw [Node.child_bareInside (types_shown k a ha)]
  cases hm : n.child a with
  | error e => exact .refl _
  | ok m =>
    obtain ⟨v, hv, hnode⟩ := except_bind_ok.1 hm
    exact h.shown m ⟨k, a, v, hk, ha, hv, Value.mem_nodes_of_asNode hnode⟩

theorem shows_item (hk : n.kind? = some k) (ha : a ∈ k.shownAttrs) {vs : List Value} (hvs : n.items a = .ok vs)
    {v : Value} (hv : v ∈ vs) {m : Node} (hm : v.asNode = .ok m) : n.Shows m := by
  obtain ⟨w, hw, hitems⟩ := except_bind_ok.1 hvs
  exact ⟨k, a, w, hk, ha, hw, Value.mem_nodes_of_items hitems hv hm⟩

theorem Prepared.item (h : Prepared why n) (hk : n.kind? = some k) (ha : a ∈ k.shownAttrs) {vs : List Value}
    (hvs : n.items a = .ok vs) {v : Value} (hv : v ∈ vs) :
    SameUnless why (v.asNode >>= Node.typeText) (v.bare.asNode >>= Node.typeText) := by
  rw [Value.asNode_bare]
  cases hm : v.asNode with
  | error e => exact .refl _
  | ok m => exact h.shown m (shows_item hk ha hvs hv hm)

theorem Prepared.each (h : Prepared why n) (hk : n.kind? = some k) (ha : a ∈ k.shownAttrs) {vs : List Value}
    (hvs : n.items a = .ok vs) :
    SameUnless why (eachNode Node.typeText vs) (eachNode Node.typeText (vs.map Value.bare)) := by
  unfold eachNode
  rw [List.mapM_map]
  exact .mapM fun v hv => h.item hk ha hvs hv

theorem Prepared.spellings (h : Prepared why n) (hk : n.kind? = some k) (ha : a ∈ k.shownAttrs) :
    SameUnless why (spellings a n Node.typeText) (spellings a n.bareInside Node.typeText) := by
  unfold TypeText.spellings
  rw [Node.items_bareInside (types_shown k a ha)]
  cases hvs : n.items a with
  | error e => exact .refl _
  | ok vs => exact (h.each hk ha hvs).bind fun _ _ => .refl _

theorem respects_spelled (t : Text) : Respects why k (spelled t) := fun _ _ _ => .refl _

theorem respects_named : Respects why k named := by
  intro n _ _
  unfold named
  rw [Node.get_label rfl]
  exact .refl _

theorem respects_number : Respects why k number := by
  intro n _ _
  unfold number
  rw [Node.get_label rfl]
  exact .refl _

theorem respects_through (ha : a ∈ k.shownAttrs) : Respects why k (through a) := by
  intro n hk h
  exact h.child hk ha

theorem respects_applied (name : Text) (ha : a ∈ k.shownAttrs) : Respects why k (applied name a) := by
  intro n hk h
  unfold applied
  rw [← bind_assoc, ← bind_assoc]
  exact (h.child hk ha).bind fun _ _ => .refl _

theorem respects_option (ha : .item ∈ k.shownAttrs) : Respects why k option := by
  intro n hk h
  rw [option_eq, option_eq]
  exact respects_applied "Option" ha n hk h

theorem respects_mapping (hkey : .key ∈ k.shownAttrs) (hvalue : .value ∈ k.shownAttrs) : Respects why k mapping := by
  intro n hk h
  unfold mapping
  rw [← bind_assoc, ← bind_assoc]
  refine (h.child hk hkey).bind fun _ _ => ?_
  rw [← bind_assoc, ← bind_assoc]
  exact (h.child hk hvalue).bind fun _ _ => .refl _

theorem respects_sequence (ha : .items ∈ k.shownAttrs) : Respects why k sequence := by
  intro n hk h
  exact (h.spellings hk ha).bind fun _ _ => .refl _

/-- a field that is no wrapper keeps its name -/
theorem Prepared.field (h : Prepared why n) (hk : n.kind? = some .structType) {vs : List Value}
    (hvs : n.items .fields = .ok vs) {v : Value} (hv : v ∈ vs) :
    SameUnless why (fieldText Node.typeText v) (fieldText Node.typeText v.bare) := by
  unfold fieldText
  rw [Value.asNode_bare]
  cases hf : v.asNode with
  | error e => exact .refl _
  | ok f =>
    have hshown : n.Shows f := shows_item hk (by decide) hvs hv hf
    cases hw : f.isWrapper with
    | false =>
      change SameUnless why (f.get .name >>= _) (f.bare.get .name >>= _)
      rw [Node.bare_of_not_wrapper hw, Node.get_label rfl]
      refine .after _ fun name _ => ?_
      rw [← Node.bare_of_not_wrapper hw]
      exact (h.shown f hshown).bind fun _ _ => .refl _
    | true =>
      -- a wrapper has no name, so the struct has no spelling
      obtain ⟨w, hget, hitems⟩ := except_bind_ok.1 hvs
      have hwhy : why := h.fields ⟨hk, w, hget, f, Value.mem_nodes_of_items hitems hv hf, hw⟩
      have hname : f.get .name = .error .missingAttribute := by rw [Node.get, h.nameless f hshown hw]
      refine .inr ⟨hwhy, .missingAttribute, ?_⟩
      change (f.get .name >>= _) = _
      rw [hname]
      rfl

theorem respects_record : Respects why .structType record := by
  intro n hk h
  unfold record
  have hget : n.bareInside.get .fields = (n.get .fields).map Value.bare := Node.get_bareInside n .fields
  rw [hget, Node.items_bareInside rfl]
  cases hv : n.get .fields with
  | error e => exact .refl _
  | ok v =>
    change SameUnless why (if !v.isGiven then _ else _) (if !v.bare.isGiven then _ else _)
    rw [Value.isGiven_bare]
    split
    · exact .refl _
    · cases hvs : n.items .fields with
      | error e => exact .refl _
      | ok vs =>
        refine SameUnless.bind (x := vs.mapM (fieldText Node.typeText)) ?_ fun _ _ => .refl _
        rw [List.mapM_map]
        exact .mapM fun v hv => h.field hk hvs hv

/-! ## Enumerations -/

/-- what some variants are listed as, literals if none carries data -/
def listed (visit : Node → Outcome) (vs : List Value) (scalar : Bool) : Except Fault (List Text) :=
  if scalar then vs.mapM literal else do (← eachNode visit vs).mapM Value.asText

def variantsText (visit : Node → Outcome) (vs : List Value) (scalar : Bool) : Outcome := do
  return .text (Text.joinWith " | " (← listed visit vs scalar))

theorem enumeration_of_items {vs : List Value} (hvs : n.items .variants = .ok vs) (visit : Node → Outcome) :
    enumeration n visit = isScalarEnum.allEmpty vs >>= variantsText visit vs := by
  unfold enumeration isScalarEnum spellings
  rw [hvs]
  refine bind_congr_ok fun scalar _ => ?_
  cases scalar <;> rfl

theorem enumeration_of_scalar {vs : List Value} (hvs : n.items .variants = .ok vs) {scalar : Bool}
    (h : isScalarEnum.allEmpty vs = .ok scalar) (visit : Node → Outcome) :
    enumeration n visit = variantsText visit vs scalar := by
  rw [enumeration_of_items hvs, h]
  rfl

theorem enumeration_of_error {vs : List Value} (hvs : n.items .variants = .ok vs) {e : Fault}
    (h : isScalarEnum.allEmpty vs = .error e) (visit : Node → Outcome) : enumeration n visit = .error e := by
  rw [enumeration_of_items hvs, h]
  rfl

/-- what variants that are all nodes come to -/
theorem allEmpty_cons {v : Value} {m : Node} (hm : v.asNode = .ok m) (rest : List Value) :
    isScalarEnum.allEmpty (v :: rest) =
      if m.isKind .enumEmptyVariantType then isScalarEnum.allEmpty rest else .ok false := by
  rw [isScalarEnum.allEmpty, hm]
  rfl

theorem allEmpty_cons_error {v : Value} {e : Fault} (he : v.asNode = .error e) (rest : List Value) :
    isScalarEnum.allEmpty (v :: rest) = .error e := by
  rw [isScalarEnum.allEmpty, he]
  rfl

theorem allEmpty_eq_true {vs : List Value} : isScalarEnum.allEmpty vs = .ok true ↔
    ∀ v ∈ vs, ∃ m, v.asNode = .ok m ∧ m.isKind .enumEmptyVariantType = true := by
  induction vs with
  | nil => simp [isScalarEnum.allEmpty]
  | cons v rest ih =>
    rw [List.forall_mem_cons, ← ih]
    cases hm : v.asNode with
    | error e => simp [allEmpty_cons_error hm]
    | ok m =>
      rw [allEmpty_cons hm]
      cases hempty : m.isKind .enumEmptyVariantType <;> simp [hempty]

theorem not_isWrapper_of_empty {m : Node} (h : m.isKind .enumEmptyVariantType = true) : m.isWrapper = false := by
  have hk : m.kind? = some .enumEmptyVariantType := beq_iff_eq.1 h
  unfold Node.isWrapper
  rw [hk]
  rfl

/-- an empty variant is kept -/
theorem isKind_bare {m : Node} (h : m.isKind .enumEmptyVariantType = true) :
    m.bare.isKind .enumEmptyVariantType = true := by
  rw [Node.bare_of_not_wrapper (not_isWrapper_of_empty h), Node.isKind, Node.kind_bareInside]
  exact h

/-- variants that are not all empty without wrappers are not all empty -/
theorem allEmpty_of_bare_false {vs : List Value} (h : isScalarEnum.allEmpty (vs.map Value.bare) = .ok false) :
    isScalarEnum.allEmpty vs = .ok false := by
  induction vs with
  | nil => cases h
  | cons v rest ih =>
    cases hm : v.asNode with
    | error e =>
      have hbare : v.bare.asNode = .error e := by rw [Value.asNode_bare, hm]; rfl
      rw [List.map_cons, allEmpty_cons_error hbare] at h
      cases h
    | ok m =>
      have hbare : v.bare.asNode = .ok m.bare := by rw [Value.asNode_bare, hm]; rfl
      rw [List.map_cons, allEmpty_cons hbare] at h
      rw [allEmpty_cons hm]
      cases hempty : m.isKind .enumEmptyVariantType with
      | false => rfl
      | true =>
        rw [isKind_bare hempty] at h
        exact ih h

theorem asNode_error {v : Value} {e : Fault} (h : v.asNode = .error e) : e = .missingAttribute := by
  cases v <;> cases h <;> rfl

theorem get_error {m : Node} {e : Fault} (h : m.get a = .error e) : e = .missingAttribute := by
  unfold Node.get at h
  split at h <;> cases h
  rfl

theorem allEmpty_error {vs : List Value} {e : Fault} (h : isScalarEnum.allEmpty vs = .error e) :
    e = .missingAttribute ∧ ∃ v ∈ vs, v.asNode = .error e := by
  induction vs with
  | nil => cases h
  | cons v rest ih =>
    cases hm : v.asNode with
    | error e' =>
      rw [allEmpty_cons_error hm] at h
      cases h
      exact ⟨asNode_error hm, v, List.mem_cons_self, hm⟩
    | ok m =>
      rw [allEmpty_cons hm] at h
      split at h
      · obtain ⟨he, w, hw, hnode⟩ := ih h
        exact ⟨he, w, List.mem_cons_of_mem _ hw, hnode⟩
      · cases h

/-- all variants are empty without wrappers -/
theorem allEmpty_bare {vs : List Value} : isScalarEnum.allEmpty (vs.map Value.bare) = .ok true ↔
    ∀ v ∈ vs, ∃ m, v.asNode = .ok m ∧ m.bare.isKind .enumEmptyVariantType = true := by
  rw [allEmpty_eq_true, List.forall_mem_map]
  refine forall₂_congr fun v _ => ?_
  rw [Value.asNode_bare]
  cases v.asNode with
  | error e => simp [Except.map]
  | ok m => simp [Except.map]

/-- a variant in a wrapper is not seen to be empty -/
theorem allEmpty_of_wrapper {vs : List Value}
    (hall : ∀ v ∈ vs, ∃ m, v.asNode = .ok m ∧ m.bare.isKind .enumEmptyVariantType = true)
    (hwrapped : ∃ v ∈ vs, ∃ w, v.asNode = .ok w ∧ w.isWrapper = true) : isScalarEnum.allEmpty vs = .ok false := by
  obtain ⟨v, hv, w, hvw, hw⟩ := hwrapped
  cases hvariants : isScalarEnum.allEmpty vs with
  | error e =>
    obtain ⟨-, u, hu, hnode⟩ := allEmpty_error hvariants
    obtain ⟨m, hm, -⟩ := hall u hu
    rw [hnode] at hm
    cases hm
  | ok scalar =>
    cases scalar with
    | false => rfl
    | true =>
      obtain ⟨m, hm, hempty⟩ := allEmpty_eq_true.1 hvariants v hv
      rw [hvw] at hm
      cases hm
      rw [not_isWrapper_of_empty hempty] at hw
      cases hw

/-- what is an empty variant without wrappers is spelled as its name -/
theorem typeText_of_bare_empty {m : Node} (h : m.bare.isKind .enumEmptyVariantType = true) :
    m.typeText = m.bare.get .name := by
  induction hheight : m.height using Nat.strong_induction_on generalizing m with
  | _ height ih =>
    subst hheight
    by_cases hinner : m.isWrapper = true ∧ ∃ x, m.child .type = .ok x
    · obtain ⟨hw, x, hx⟩ := hinner
      rw [Node.bare_of_wrapper hw hx] at h ⊢
      rw [Node.typeText_of_wrapper hw, hx]
      exact ih x.height (Node.height_of_child hx) h rfl
    · rw [Node.bare_of_kept hinner] at h ⊢
      rw [Node.isKind, Node.kind_bareInside] at h
      rw [Node.get_label rfl]
      exact Node.typeText_of_kind (beq_iff_eq.1 h)

/-- the first value among the variants that is no node is found at the latest when they are spelled -/
theorem variants_error {vs : List Value} {e : Fault} (he : isScalarEnum.allEmpty (vs.map Value.bare) = .error e) :
    (isScalarEnum.allEmpty vs = .error e ∨ isScalarEnum.allEmpty vs = .ok false) ∧
      eachNode Node.typeText vs = .error e := by
  induction vs with
  | nil => cases he
  | cons v rest ih =>
    have hmissing := (allEmpty_error he).1
    unfold eachNode
    rw [List.mapM_cons]
    cases hm : v.asNode with
    | error e' =>
      obtain rfl : e' = e := (asNode_error hm).trans hmissing.symm
      exact ⟨.inl (allEmpty_cons_error hm rest), rfl⟩
    | ok m =>
      have hbare : v.bare.asNode = .ok m.bare := by rw [Value.asNode_bare, hm]; rfl
      rw [List.map_cons, allEmpty_cons hbare] at he
      split at he
      · next hempty =>
        obtain ⟨hscalar, hspelled⟩ := ih he
        constructor
        · rw [allEmpty_cons hm]
          split
          · exact hscalar
          · exact .inr rfl
        · -- the spelling of an empty variant is its name, or a fault like the one that is still to come
          change (m.typeText >>= fun spelled => eachNode Node.typeText rest >>= fun more => pure (spelled :: more)) = _
          rw [typeText_of_bare_empty hempty, hspelled]
          cases hname : m.bare.get .name with
          | error e' => exact congrArg Except.error ((get_error hname).trans hmissing.symm)
          | ok name => rfl
      · cases he

theorem literal_bare {v : Value} (h : ∃ m, v.asNode = .ok m ∧ m.isKind .enumEmptyVariantType = true) :
    literal v.bare = literal v := by
  obtain ⟨m, hm, hempty⟩ := h
  unfold literal
  rw [Value.asNode_bare, hm]
  change (m.bare.get .name >>= _) = (m.get .name >>= _)
  rw [Node.bare_of_not_wrapper (not_isWrapper_of_empty hempty), Node.get_label rfl]

/-- if all variants are empty without wrappers, none of them has a wrapper -/
theorem Prepared.all_empty (h : Prepared why n) (hk : n.kind? = some .enumType) {vs : List Value}
    (hvs : n.items .variants = .ok vs) (hbare : isScalarEnum.allEmpty (vs.map Value.bare) = .ok true) :
    ∀ v ∈ vs, ∃ m, v.asNode = .ok m ∧ m.isKind .enumEmptyVariantType = true := by
  have hall := allEmpty_bare.1 hbare
  intro v hv
  obtain ⟨m, hm, hempty⟩ := hall v hv
  refine ⟨m, hm, ?_⟩
  cases hw : m.isWrapper with
  | true => exact absurd ⟨hk, vs, hvs, ⟨v, hv, m, hm, hw⟩, hall⟩ h.variants
  | false =>
    rw [Node.bare_of_not_wrapper hw, Node.isKind, Node.kind_bareInside] at hempty
    exact hempty

theorem respects_enumeration : Respects why .enumType enumeration := by
  intro n hk h
  have hitems := Node.items_bareInside (n := n) (a := .variants) rfl
  cases hvs : n.items .variants with
  | error e =>
    rw [hvs] at hitems
    unfold enumeration isScalarEnum
    rw [hvs, hitems]
    exact .refl _
  | ok vs =>
    have hbare : n.bareInside.items .variants = .ok (vs.map Value.bare) := by rw [hitems, hvs]; rfl
    cases hscalar : isScalarEnum.allEmpty (vs.map Value.bare) with
    | error e =>
      rw [enumeration_of_error hbare hscalar]
      obtain ⟨hwrapped | hwrapped, hspelled⟩ := variants_error hscalar
      · rw [enumeration_of_error hvs hwrapped]
        exact .refl _
      · rw [enumeration_of_scalar hvs hwrapped, variantsText, listed, if_neg Bool.false_ne_true, hspelled]
        exact .refl _
    | ok scalar =>
      rw [enumeration_of_scalar hbare hscalar]
      cases scalar with
      | false =>
        rw [enumeration_of_scalar hvs (allEmpty_of_bare_false hscalar)]
        have heach := h.each hk (List.mem_singleton_self _) hvs
        exact (heach.bind fun _ _ => .refl _).bind fun _ _ => .refl _
      | true =>
        have hempty := h.all_empty hk hvs hscalar
        have hsame : (vs.map Value.bare).mapM literal = vs.mapM literal := by
          rw [List.mapM_map]
          exact Node.mapM_congr fun v hv => literal_bare (hempty v hv)
        rw [enumeration_of_scalar hvs (allEmpty_eq_true.2 hempty), variantsText, variantsText, listed, listed,
          if_pos rfl, if_pos rfl, hsame]
        exact .refl _

/-! ## All handlers -/

theorem handlers_respect : ∀ e ∈ handlers, Respects why e.1 e.2 := by
  simp only [handlers, List.forall_mem_cons, List.not_mem_nil, false_implies, implies_true, and_true,
    respects_spelled, respects_named, respects_number, respects_record, respects_enumeration, true_and]
  refine ⟨respects_applied _ ?_, respects_through ?_, respects_through ?_, respects_through ?_,
    respects_mapping ?_ ?_, respects_option ?_, respects_through ?_, respects_through ?_, respects_option ?_,
    respects_through ?_, respects_applied _ ?_, respects_through ?_, respects_through ?_, respects_sequence ?_,
    respects_option ?_⟩
  all_goals decide

/-- the spelling of a node is that of the node without wrappers inside it -/
theorem Prepared.inside (h : Prepared why n) : SameUnless why n.typeText n.bareInside.typeText := by
  rw [Node.typeText_eq, Node.typeText_eq n.bareInside, handlerAt, handlerAt, Node.kind_bareInside]
  cases hk : n.kind? with
  | none => exact .refl _
  | some k =>
    simp only [Option.elim_some, handlerOf]
    cases hhandler : OrderedMap.lookupIn k handlers with
    | none => exact .refl _
    | some handler => exact handlers_respect _ (OrderedMap.mem_of_lookupIn hhandler) n hk h

end TypeText

/-! ## Spellings -/

namespace Node

variable {n : Node}

/-- without its wrappers a node is spelled the same, unless it has no spelling because a struct has a wrapper in place
of a field -/
theorem sameUnless_bare {why : Prop} (hnameless : n.NamelessWrappers) (hfields : ∀ m, n.ShowsWithin m → m.WrapsField → why)
    (hvariants : ∀ m, n.ShowsWithin m → ¬ m.HidesEmpty) : SameUnless why n.typeText n.bare.typeText := by
  induction hheight : n.height using Nat.strong_induction_on generalizing n with
  | _ height ih =>
    subst hheight
    have hprepared : TypeText.Prepared why n := by
      refine ⟨fun m hm => ?_, fun m hm => hnameless m hm.single, hfields n .refl, hvariants n .refl⟩
      exact ih m.height hm.height_lt (fun x hx => hnameless x (hx.head hm)) (fun x hx => hfields x (hx.head hm))
        (fun x hx => hvariants x (hx.head hm)) rfl
    by_cases hinner : n.isWrapper = true ∧ ∃ m, n.child .type = .ok m
    · obtain ⟨hw, m, hm⟩ := hinner
      rw [bare_of_wrapper hw hm, typeText_of_wrapper hw, hm]
      exact hprepared.shown m (wrapper_shows hw hm)
    · rw [bare_of_kept hinner]
      exact hprepared.inside

end Node

/-! ## Enumerations that change -/

namespace TypeText

def quoted (t : Text) : Text := "'" ++ t ++ "'"

theorem length_joinWith_quoted (separator : Text) (ts : List Text) :
    (Text.joinWith separator (ts.map quoted)).length = (Text.joinWith separator ts).length + 2 * ts.length := by
  have hquoted : ∀ t, (quoted t).length = t.length + 2 := by
    intro t
    simp [quoted, Text.ofString]
  induction ts with
  | nil => rfl
  | cons t rest ih =>
    cases rest with
    | nil => simp [Text.joinWith, hquoted]
    | cons u rest =>
      simp only [List.map_cons, Text.joinWith, List.length_append, List.length_cons, hquoted] at ih ⊢
      omega

/-- the literals of variants that are empty without wrappers are their spellings in quotes -/
theorem literals_of_spellings {vs : List Value} {ts : List Text}
    (hall : ∀ v ∈ vs, ∃ m, v.asNode = .ok m ∧ m.bare.isKind .enumEmptyVariantType = true)
    (h : (do (← eachNode Node.typeText vs).mapM Value.asText) = .ok ts) :
    (vs.map Value.bare).mapM literal = .ok (ts.map quoted) := by
  obtain ⟨spelled, hspelled, hts⟩ := except_bind_ok.1 h
  have hvs : List.Forall₂ (fun v s => (v.asNode >>= Node.typeText) = .ok s) vs spelled := mapM_eq_ok.1 hspelled
  have hss : List.Forall₂ (fun s t => Value.asText s = .ok t) spelled ts := mapM_eq_ok.1 hts
  rw [List.mapM_map]
  refine mapM_eq_ok.2 ?_
  clear h hspelled hts
  induction hvs generalizing ts with
  | nil =>
    cases hss
    exact .nil
  | @cons v s vs' ss hv _ ih =>
    cases hss with
    | @cons _ t _ ts' ht hrest =>
      obtain ⟨⟨m, hm, hempty⟩, hothers⟩ := List.forall_mem_cons.1 hall
      refine .cons ?_ (ih hothers hrest)
      rw [hm] at hv
      change m.typeText = .ok s at hv
      rw [typeText_of_bare_empty hempty] at hv
      change literal v.bare = .ok (quoted t)
      unfold literal
      rw [Value.asNode_bare, hm]
      change (m.bare.get .name >>= _) = _
      rw [hv]
      cases s <;> cases ht
      rfl

end TypeText

namespace Node

open TypeText

variable {n : Node}

/-- an enumeration that hides that it is empty has its variants as literals only without wrappers -/
theorem HidesEmpty.changes (h : n.HidesEmpty) {s : Value} (hs : n.typeText = .ok s) : n.bare.typeText ≠ .ok s := by
  obtain ⟨hk, vs, hvs, hwrapped, hall⟩ := h
  have hspelling : n.typeText = variantsText typeText vs false := by
    rw [typeText_of_kind hk]
    exact enumeration_of_scalar hvs (allEmpty_of_wrapper hall hwrapped) typeText
  have hspelling' : n.bare.typeText = variantsText typeText (vs.map Value.bare) true := by
    have hitems : n.bareInside.items .variants = .ok (vs.map Value.bare) := by rw [items_bareInside rfl, hvs]; rfl
    rw [bare_of_not_wrapper (by rw [isWrapper, hk]; rfl), typeText_of_kind ((kind_bareInside n).trans hk)]
    exact enumeration_of_scalar hitems (allEmpty_bare.2 hall) typeText
  rw [hspelling] at hs
  obtain ⟨ts, hts, hs⟩ := except_bind_ok.1 hs
  cases hs
  have hpos : 0 < ts.length := by
    obtain ⟨spelled, hspelled, htexts⟩ := except_bind_ok.1 hts
    obtain ⟨v, hv, -⟩ := hwrapped
    rw [← (mapM_eq_ok.1 htexts).length_eq, ← (mapM_eq_ok.1 hspelled).length_eq]
    exact List.length_pos_of_mem hv
  -- quotes make the list longer
  intro hsame
  rw [hspelling', variantsText, listed, if_pos rfl, literals_of_spellings hall hts] at hsame
  have hlengths := congrArg List.length (Value.text.inj (Except.ok.inj hsame))
  rw [length_joinWith_quoted] at hlengths
  omega

/-! ## Wrappers leave no trace -/

/-- **Wrappers leave no trace in the spelling of a type.** A type is spelled as what is inside its wrappers. Without any
of its wrappers it is spelled the same, as long as it shows no enumeration with a variant in a wrapper of which all
variants are empty without wrappers; only a type that has no spelling at all can get one, and then it shows a struct
with a wrapper in place of a field. Such an enumeration itself is never spelled the same. -/
theorem wrappers_leave_no_trace (n : Node) :
    n.unwrap >>= typeText = n.typeText ∧
    (n.NamelessWrappers → (∀ m, n.ShowsWithin m → ¬ m.HidesEmpty) → n.bare.typeText = n.typeText ∨
      (∃ m, n.ShowsWithin m ∧ m.WrapsField) ∧ ∃ e, n.typeText = .error e) ∧
    (n.HidesEmpty → ∀ s, n.typeText = .ok s → n.bare.typeText ≠ .ok s) ∧
    ∀ m, Relation.ReflTransGen Bears n.bare m → m.isWrapper = true → ∃ e, m.child .type = .error e := by
  refine ⟨typeText_unwrap n, fun hnameless hvariants => ?_, fun h s hs => h.changes hs, fun m => wrapper_of_bare⟩
  exact sameUnless_bare hnameless (fun m hm hwraps => ⟨m, hm, hwraps⟩) hvariants

def typed (k : Kind) (given : List (Attr × Value)) : Node := .known k (fillSlots k.slots given)

def sized (type : Node) : Node := typed .fixedSizeType [(.type, .node type), (.size, .int 8)]

/-- an enumeration with a variant in a wrapper and one that carries data -/
def direction : Node :=
  typed .enumType [(.variants, .tuple [.node (sized (typed .enumEmptyVariantType [(.name, .text "up")])),
    .node (typed .enumTupleVariantType [(.name, .text "by"), (.tuple, .node (typed .tupleType []))])])]

/-- an option of a wrapped array of wrapped tuples, itself in two wrappers -/
def parcel : Node :=
  sized (typed .sentinelType [(.type, .node (typed .optionType [(.item, .node (sized (typed .arrayType [
    (.item, .node (sized (typed .tupleType [
      (.items, .tuple [.node (sized (typed .stringType [])), .node direction])])))])))]))])

theorem parcel_is_spelled : parcel.NamelessWrappers ∧ (∀ m, parcel.ShowsWithin m → ¬ m.HidesEmpty) ∧
    parcel.unwrap >>= typeText = parcel.typeText ∧ parcel.bare.typeText = parcel.typeText ∧
    parcel.typeText = .ok (.text "Option<Array<[string, up | by]>>") := by
  have hspelling : parcel.typeText = .ok (.text "Option<Array<[string, up | by]>>") := by rfl
  have hnames : parcel.everywhere (fun m => m.isWrapper == false || (m.attr? .name).isNone) 20 = true := by
    decide +kernel
  have hdata : parcel.everywhere (fun m => !m.isKind .enumType || (m.items .variants).toOption.any
      (·.any (·.asNode.toOption.any fun v => !v.bare.isKind .enumEmptyVariantType))) 20 = true := by decide +kernel
  have hnameless : parcel.NamelessWrappers := by
    intro m hm hw
    have htest := test_of_everywhere hnames hm.occurs
    rw [hw] at htest
    exact Option.isNone_iff_eq_none.1 htest
  have hvariants : ∀ m, parcel.ShowsWithin m → ¬ m.HidesEmpty := by
    rintro m hm ⟨hk, vs, hvs, -, hall⟩
    have htest := test_of_everywhere hdata hm.occurs
    rw [isKind, hk, hvs] at htest
    obtain ⟨v, hv, hany⟩ := List.any_eq_true.1 htest
    obtain ⟨x, hx, hcarries⟩ := any_toOption.1 hany
    obtain ⟨y, hy, hempty⟩ := hall v hv
    rw [hx] at hy
    cases hy
    rw [hempty] at hcarries
    cases hcarries
  obtain ⟨hunwrap, hbare, -, -⟩ := wrappers_leave_no_trace parcel
  refine ⟨hnameless, hvariants, hunwrap, (hbare hnameless hvariants).resolve_right ?_, hspelling⟩
  rintro ⟨-, e, he⟩
  rw [hspelling] at he
  cases he

/-- an enumeration of two empty variants, one of them in a wrapper -/
def signal : Node :=
  typed .enumType [(.variants, .tuple [.node (typed .fixedSizeType [
    (.type, .node (typed .enumEmptyVariantType [(.name, .text "up")])), (.size, .int 4)]),
    .node (typed .enumEmptyVariantType [(.name, .text "down")])])]

/-- variants are not looked for inside wrappers when it is told whether any of them carries data -/
theorem wrapped_variants_lose_quotes : signal.typeText = .ok (.text "up | down") ∧
    signal.bare.typeText = .ok (.text "'up' | 'down'") ∧ ¬ ∀ n : Node, n.bare.typeText = n.typeText := by
  have hspelling : signal.typeText = .ok (.text "up | down") := by rfl
  have hbare : signal.bare.typeText = .ok (.text "'up' | 'down'") := by rfl
  refine ⟨hspelling, hbare, fun h => ?_⟩
  have hsame := h signal
  rw [hbare, hspelling] at hsame
  exact absurd (Value.text.inj (Except.ok.inj hsame)) (by decide)

end Node

end InterfacePages
