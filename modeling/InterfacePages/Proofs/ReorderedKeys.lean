/-
Data whose keys stand in another order.

`Json.Shuffled` relates data to the same in which the fields of objects, at any depth, stand in any order. The order of
the fields decides which of two faults is reported and which of two fields for one attribute counts. If the keys of each
object that reading comes to are distinct and give distinct attributes (`Unambiguous`), the order decides nothing else:
reading both answers or both fails, and the answers are the same up to the order of keys in the objects that are kept as
they were read (`ofJson_looks_at_known`).

Reading comes to an object (`Reaches`) only if everything before it is read, so nothing is asked of what stands behind
the first fault.
-/
import InterfacePages.Proofs.ReorderedTrees
import InterfacePages.Proofs.StoredNames
import InterfacePages.Proofs.UnreadFields

namespace InterfacePages

/-! ## Outcomes -/

/-- two outcomes both answer, with related answers, or both fail -/
inductive EndsAlike {ε ρ δ : Type} (R : ρ → δ → Prop) : Except ε ρ → Except ε δ → Prop
  | ok {a : ρ} {b : δ} (h : R a b) : EndsAlike R (.ok a) (.ok b)
  | error (e e' : ε) : EndsAlike R (.error e) (.error e')

namespace EndsAlike

variable {ε ρ ρ' δ δ' ι ι' : Type} {R : ρ → δ → Prop} {R' : ρ' → δ' → Prop} {Q : ι → ι' → Prop}

theorem refl {S : ρ → ρ → Prop} (h : ∀ a, S a a) (x : Except ε ρ) : EndsAlike S x x := by
  cases x with
  | ok a => exact .ok (h a)
  | error e => exact .error e e

theorem bind {x : Except ε ρ} {y : Except ε δ} (h : EndsAlike R x y) {next : ρ → Except ε ρ'}
    {after : δ → Except ε δ'} (hn : ∀ a b, x = .ok a → y = .ok b → R a b → EndsAlike R' (next a) (after b)) :
    EndsAlike R' (x >>= next) (y >>= after) := by
  cases h with
  | ok hab => exact hn _ _ rfl rfl hab
  | error e e' => exact .error e e'

theorem carries {x : Except ε ρ} {y : Except ε δ} (h : EndsAlike R x y) : Carries R x y := by
  cases h with
  | ok hab => exact .ok hab
  | error => exact .error

theorem returns {x : Except ε ρ} {y : Except ε δ} (h : EndsAlike R x y) {b : δ} (hy : y = .ok b) :
    ∃ a, x = .ok a := by
  cases h with
  | ok => exact ⟨_, rfl⟩
  | error => cases hy

variable {f : ι → Except ε ρ} {g : ι' → Except ε δ} {xs : List ι} {ys : List ι'}

/-- lists end alike if the items do, where all items before have answered -/
theorem mapM (h : List.Forall₂ Q xs ys)
    (hfg : ∀ before x after y, xs = before ++ x :: after → (∀ z ∈ before, ∃ a, f z = .ok a) → Q x y →
      EndsAlike R (f x) (g y)) : EndsAlike (List.Forall₂ R) (xs.mapM f) (ys.mapM g) := by
  induction h with
  | nil => exact .ok .nil
  | @cons x y xs ys hxy _ ih =>
    rw [List.mapM_cons, List.mapM_cons]
    refine (hfg [] x xs y rfl (fun z hz => absurd hz List.not_mem_nil) hxy).bind fun a b ha _ hab => ?_
    refine (ih fun before z after w hsplit hbefore => ?_).bind fun as bs _ _ hs => .ok (.cons hab hs)
    exact hfg (x :: before) z after w (congrArg (x :: ·) hsplit) (List.forall_mem_cons.2 ⟨⟨a, ha⟩, hbefore⟩)

/-- so do rearranged lists: the counterpart of the first item that fails fails as well -/
theorem mapM_rearranged (h : Rearranged Q xs ys)
    (hfg : ∀ before x after y, xs = before ++ x :: after → (∀ z ∈ before, ∃ a, f z = .ok a) → Q x y →
      EndsAlike R (f x) (g y)) : EndsAlike (Rearranged R) (xs.mapM f) (ys.mapM g) := by
  cases hx : xs.mapM f with
  | ok as =>
    -- every item has only items before it that answer
    have hall := mapM_returns.1 ⟨as, hx⟩
    have hcarries : ∀ x y, (x ∈ xs ∧ Q x y) → Carries R (f x) (g y) := by
      intro x y ⟨hmem, hxy⟩
      obtain ⟨before, after, rfl⟩ := List.append_of_mem hmem
      exact (hfg before x after y rfl (fun z hz => hall z (List.mem_append_left _ hz)) hxy).carries
    obtain ⟨bs, hbs, hab⟩ := h.imp_mem.mapM hcarries as hx
    rw [hbs]
    exact .ok hab
  | error e =>
    obtain ⟨before, x, after, rfl, hbefore, hfault⟩ := mapM_eq_error.1 hx
    obtain ⟨y, hy, hxy⟩ := h.exists_right (List.mem_append_right _ List.mem_cons_self)
    cases hys : ys.mapM g with
    | error e' => exact .error e e'
    | ok bs =>
      obtain ⟨b, hb⟩ := mapM_returns.1 ⟨bs, hys⟩ y hy
      obtain ⟨a, ha⟩ := (hfg before x after y rfl hbefore hxy).returns hb
      rw [hfault] at ha
      cases ha

end EndsAlike

/-! ## Entries in another order -/

namespace Rearranged

variable {κ α β : Type} {R : α → β → Prop}

theorem filterMap {γ δ : Type} {S : γ → δ → Prop} {f : α → Option γ} {g : β → Option δ} {xs : List α} {ys : List β}
    (h : Rearranged R xs ys) (hfg : ∀ a b, R a b → Option.Rel S (f a) (g b)) :
    Rearranged S (xs.filterMap f) (ys.filterMap g) := by
  obtain ⟨zs, hperm, hrel⟩ := h
  exact ⟨zs.filterMap f, hperm.filterMap f, List.rel_filterMap (fun a b hab => hfg a b hab) hrel⟩

variable {es : List (κ × α)} {es' : List (κ × β)}

theorem keys_perm (h : Rearranged (Keyed R) es es') : (es.map Prod.fst).Perm (es'.map Prod.fst) := by
  refine eq_iff.1 (h.map fun e e' he => ?_)
  obtain ⟨k, -⟩ := he
  rfl

/-- distinct keys lead to the same entries in any order -/
theorem lookupIn [DecidableEq κ] (h : Rearranged (Keyed R) es es') (hd : (es.map Prod.fst).Nodup) (k : κ) :
    Option.Rel R (OrderedMap.lookupIn k es) (OrderedMap.lookupIn k es') := by
  cases hv : OrderedMap.lookupIn k es with
  | some v =>
    obtain ⟨e', he', hkeyed⟩ := h.exists_right (OrderedMap.mem_of_lookupIn hv)
    obtain ⟨_, hvw⟩ := hkeyed
    rw [(OrderedMap.lookupIn_eq_some (h.keys_perm.nodup_iff.1 hd)).2 he']
    exact .some hvw
  | none =>
    cases hw : OrderedMap.lookupIn k es' with
    | none => exact .none
    | some w =>
      obtain ⟨e, he, hkeyed⟩ := h.exists_left (OrderedMap.mem_of_lookupIn hw)
      obtain ⟨_, hvw⟩ := hkeyed
      obtain ⟨v, hsome⟩ := OrderedMap.exists_lookupIn he
      rw [hv] at hsome
      cases hsome

end Rearranged

/-! ## Data -/

namespace Json

/-- data and the same, or an array of items related by `R`, or an object in which fields with values related by `R`
stand in any order -/
inductive LevelShuffled (R : Json → Json → Prop) : Json → Json → Prop
  | same (data : Json) : LevelShuffled R data data
  | array {items items' : List Json} (h : List.Forall₂ R items items') : LevelShuffled R (.array items) (.array items')
  | object {fields fields' : List (Text × Json)} (h : Rearranged (Keyed R) fields fields') :
      LevelShuffled R (.object fields) (.object fields')

/-- data and the same, shuffled at most so deep -/
def ShuffledUpTo : Nat → Json → Json → Prop
  | 0 => Eq
  | depth + 1 => LevelShuffled (ShuffledUpTo depth)

/-- data and the same, where the fields of objects, at any depth, stand in any order -/
def Shuffled (data data' : Json) : Prop := ∃ depth, ShuffledUpTo depth data data'

/-- data that are neither an array nor an object have no order -/
theorem ShuffledUpTo.collections {depth : Nat} {data data' : Json} (h : ShuffledUpTo depth data data') :
    (data.isCollection = true ∧ data'.isCollection = true) ∨ (data.isCollection = false ∧ data = data') := by
  have hsame : ∀ data : Json, (data.isCollection = true ∧ data.isCollection = true) ∨
      (data.isCollection = false ∧ data = data) := by
    intro data
    cases hc : data.isCollection with
    | true => exact .inl ⟨rfl, rfl⟩
    | false => exact .inr ⟨rfl, rfl⟩
  cases depth with
  | zero =>
    obtain rfl : data = data' := h
    exact hsame data
  | succ depth =>
    cases h with
    | same => exact hsame data
    | array => exact .inl ⟨rfl, rfl⟩
    | object => exact .inl ⟨rfl, rfl⟩

end Json

open Json (Shuffled ShuffledUpTo)

/-! ## Nodes -/

mutual

/-- a value and the same one, up to the order of keys in objects that are kept as they were read -/
inductive Value.Recast : Value → Value → Prop
  | same (v : Value) : Value.Recast v v
  | tuple {vs vs' : List Value} (h : List.Forall₂ Value.Recast vs vs') : Value.Recast (.tuple vs) (.tuple vs')
  | node {n n' : Node} (h : Node.Recast n n') : Value.Recast (.node n) (.node n')

/-- a node and the same one, up to the order of keys in objects that are kept as they were read -/
inductive Node.Recast : Node → Node → Prop
  | known (kind : Kind) {attributes attributes' : List (Attr × Value)}
      (h : List.Forall₂ (Keyed Value.Recast) attributes attributes') :
      Node.Recast (.known kind attributes) (.known kind attributes')
  | unknown (kind : Json) {object object' : List (Text × Json)} (h : Shuffled (.object object) (.object object')) :
      Node.Recast (.unknown kind object) (.unknown kind object')

end

namespace Node

theorem Recast.refl (n : Node) : n.Recast n := by
  cases n with
  | known kind attributes => exact .known kind (List.forall₂_same.2 fun e _ => .mk e.1 (.same e.2))
  | unknown kind object => exact .unknown kind ⟨0, rfl⟩

/-- reading data comes to an object, after it has read everything before it -/
inductive Reaches : Json → List (Text × Json) → Prop
  | here (fields : List (Text × Json)) : Reaches (.object fields) fields
  | field {fields object : List (Text × Json)} {tag : Text} {kind : Kind} {a : Attr} {data : Json}
      {before after : List (Attr × Json)} (htag : Json.kindOf? fields = some (.text tag))
      (hkind : Kind.ofTag? tag = some kind) (hused : usedFields kind fields = before ++ (a, data) :: after)
      (hbefore : ∀ e ∈ before, ∃ v, valueOf e.2 = .ok v) (h : Reaches data object) : Reaches (.object fields) object
  | item {before after : List Json} {data : Json} {object : List (Text × Json)}
      (hbefore : ∀ x ∈ before, ∃ v, valueOf x = .ok v) (h : Reaches data object) :
      Reaches (.array (before ++ data :: after)) object

theorem Reaches.object_cases {fields object : List (Text × Json)} (h : Reaches (.object fields) object) :
    object = fields ∨ ∃ tag kind, ∃ e ∈ usedFields kind fields, Json.kindOf? fields = some (.text tag) ∧
      Kind.ofTag? tag = some kind ∧ Reaches e.2 object := by
  cases h with
  | here => exact .inl rfl
  | field htag hkind hused _ h =>
    exact .inr ⟨_, _, _, hused ▸ List.mem_append_right _ List.mem_cons_self, htag, hkind, h⟩

/-- the keys of an object are distinct, and no two of them give the same attribute to the node that it is read as -/
structure Unambiguous (fields : List (Text × Json)) : Prop where
  keys : (fields.map Prod.fst).Nodup
  attributes {tag : Text} {kind : Kind} (htag : Json.kindOf? fields = some (.text tag))
    (hkind : Kind.ofTag? tag = some kind) : ((usedFields kind fields).map Prod.fst).Nodup

/-! ## Making nodes -/

section

variable {given given' attributes attributes' : List (Attr × Value)} {v v' : Value}

theorem foldl_give (hd : (given.map Prod.fst).Nodup) : given.foldl give [] = given := by
  have hentries : given.foldl give OrderedMap.empty.entries = (OrderedMap.ofList given).entries :=
    List.foldl_hom OrderedMap.entries fun _ _ => rfl
  exact hentries.trans (OrderedMap.entries_ofList hd)

theorem missingLabels_rearranged (h : Rearranged (Keyed Value.Recast) given given') (slots : List Slot) :
    missingLabels slots given = missingLabels slots given' := by
  have hany : ∀ a, given.any (·.1 == a) = given'.any (·.1 == a) := by
    intro a
    simpa [List.any_map, Function.comp_def] using h.keys_perm.any_eq (f := (· == a))
  unfold missingLabels
  simp only [hany]

theorem filling_recast (h : Rearranged (Keyed Value.Recast) given given') (hd : (given.map Prod.fst).Nodup)
    (slot : Slot) : (filling given slot).Recast (filling given' slot) := by
  have hrel := h.lookupIn hd slot.attr
  unfold filling
  generalize OrderedMap.lookupIn slot.attr given = found, OrderedMap.lookupIn slot.attr given' = found' at hrel
  cases hrel with
  | none => exact .same _
  | some hv => exact hv

theorem fillSlots_recast (h : Rearranged (Keyed Value.Recast) given given') (hd : (given.map Prod.fst).Nodup)
    (slots : List Slot) : List.Forall₂ (Keyed Value.Recast) (fillSlots slots given) (fillSlots slots given') := by
  rw [fillSlots_eq, fillSlots_eq, List.forall₂_map_left_iff, List.forall₂_map_right_iff, List.forall₂_same]
  exact fun slot _ => .mk _ (filling_recast h hd slot)

theorem storedName_recast (kind : Kind) (h : v.Recast v') :
    EndsAlike Value.Recast (storedName kind v) (storedName kind v') := by
  cases h with
  | same => exact .refl .same _
  | tuple h =>
    cases h with
    | nil => exact .ok (.same _)
    | cons => exact .error _ _
  | node => exact .error _ _

theorem storeName_recast (kind : Kind) (h : List.Forall₂ (Keyed Value.Recast) attributes attributes') :
    EndsAlike (List.Forall₂ (Keyed Value.Recast)) (storeName kind attributes) (storeName kind attributes') := by
  induction h with
  | nil => exact .ok .nil
  | cons he _ ih =>
    obtain ⟨a, hv⟩ := he
    by_cases ha : a = .name
    · subst ha
      exact (storedName_recast kind hv).bind fun _ _ _ _ hw => ih.bind fun _ _ _ _ hs => .ok (.cons (.mk _ hw) hs)
    · rw [storeName, storeName]
      · exact ih.bind fun _ _ _ _ hs => .ok (.cons (.mk a hv) hs)
      · exact ha
      · exact ha

theorem make_recast (kind : Kind) (h : Rearranged (Keyed Value.Recast) given given')
    (hd : (given.map Prod.fst).Nodup) : EndsAlike Recast (make kind given) (make kind given') := by
  unfold make
  rw [missingLabels_rearranged h]
  split
  · exact (storeName_recast kind (fillSlots_recast h hd kind.slots)).bind fun _ _ _ _ hs => .ok (.known kind hs)
  · exact .error _ _

end

/-! ## Reading -/

theorem keys_readFields {used : List (Attr × Json)} {given : List (Attr × Value)}
    (h : used.mapM readField = .ok given) : given.map Prod.fst = used.map Prod.fst := by
  have hrel := mapM_eq_ok.1 h
  clear h
  induction hrel with
  | nil => rfl
  | @cons e g _ _ he _ ih =>
    obtain ⟨v, -, hg⟩ := except_bind_ok.1 he
    cases hg
    rw [List.map_cons, List.map_cons, ih]

theorem ofJson_kindless {fields : List (Text × Json)} (h : Json.kindOf? fields = none) :
    ofJson (.object fields) = .error (.invalidNode (.notAnObject (.object fields))) := by
  unfold Json.kindOf? at h
  rw [ofJson, h]

theorem ofJson_collection {fields : List (Text × Json)} {data : Json} (h : Json.kindOf? fields = some data)
    (hdata : data.isCollection = true) : ofJson (.object fields) = .error .wrongType :=
  (valueOf_object fields).1 (Stumbles.kind h hdata).valueOf_eq

/-- an object of no modelled kind is kept as it stands -/
theorem ofJson_unmodelled {fields : List (Text × Json)} {data : Json} (h : Json.kindOf? fields = some data)
    (hdata : data.isCollection = false) (hnone : ∀ tag, data = .text tag → Kind.ofTag? tag = none) :
    ofJson (.object fields) = .ok (.unknown data fields) := by
  cases data with
  | text tag => exact ofJson_unknown h (hnone tag rfl)
  | array => cases hdata
  | object => cases hdata
  | _ =>
    unfold Json.kindOf? at h
    simp [ofJson, h]

/-- reading data of some depth ends alike, however they are shuffled, if it comes to no ambiguous object -/
def ReadAlike (depth : Nat) : Prop :=
  ∀ data data', ShuffledUpTo depth data data' → (∀ object, Reaches data object → Unambiguous object) →
    EndsAlike Value.Recast (valueOf data) (valueOf data')

variable {depth : Nat} {fields fields' : List (Text × Json)}

theorem ofJson_known_shuffled (ih : ReadAlike depth) (h : Rearranged (Keyed (ShuffledUpTo depth)) fields fields')
    (hone : ∀ object, Reaches (.object fields) object → Unambiguous object) {tag : Text} {kind : Kind}
    (htag : Json.kindOf? fields = some (.text tag)) (htag' : Json.kindOf? fields' = some (.text tag))
    (hkind : Kind.ofTag? tag = some kind) : EndsAlike Recast (ofJson (.object fields)) (ofJson (.object fields')) := by
  have hused : Rearranged (Keyed (ShuffledUpTo depth)) (usedFields kind fields) (usedFields kind fields') :=
    h.filterMap fun _ _ he => fieldFor?_keyed kind he
  rw [ofJson_known htag hkind, ofJson_known htag' hkind]
  refine (EndsAlike.mapM_rearranged (R := Keyed Value.Recast) hused fun before e after e' hsplit hbefore he => ?_).bind
    fun given given' hgiven _ hrel => ?_
  · obtain ⟨a, hdata⟩ := he
    have hread := ih _ _ hdata fun object hreach =>
      hone object (.field htag hkind hsplit (fun e he => readField_ok.1 (hbefore e he)) hreach)
    exact hread.bind fun v w _ _ hvw => .ok (.mk a hvw)
  · -- no value takes the place of another, so what is given is what has been read
    have hd : (given.map Prod.fst).Nodup := by
      rw [keys_readFields hgiven]
      exact (hone fields (.here fields)).attributes htag hkind
    rw [foldl_give hd, foldl_give (hrel.keys_perm.nodup_iff.1 hd)]
    exact make_recast kind hrel hd

/-- **An object whose fields stand in another order is read as the same node, or fails like before.** -/
theorem ofJson_level_shuffled (ih : ReadAlike depth) (h : Rearranged (Keyed (ShuffledUpTo depth)) fields fields')
    (hone : ∀ object, Reaches (.object fields) object → Unambiguous object) :
    EndsAlike Recast (ofJson (.object fields)) (ofJson (.object fields')) := by
  have hrel := h.lookupIn (hone fields (.here fields)).keys (Text.ofString "kind")
  change Option.Rel _ (Json.kindOf? fields) (Json.kindOf? fields') at hrel
  generalize hk : Json.kindOf? fields = found, hk' : Json.kindOf? fields' = found' at hrel
  cases hrel with
  | none =>
    rw [ofJson_kindless hk, ofJson_kindless hk']
    exact .error _ _
  | @some data data' hdata =>
    rcases hdata.collections with ⟨hc, hc'⟩ | ⟨hc, rfl⟩
    · -- such a kind cannot be looked up, in whatever order its own parts stand
      rw [ofJson_collection hk hc, ofJson_collection hk' hc']
      exact .error _ _
    · by_cases hknown : ∃ tag kind, data = .text tag ∧ Kind.ofTag? tag = some kind
      · obtain ⟨tag, kind, rfl, hkind⟩ := hknown
        exact ofJson_known_shuffled ih h hone hk hk' hkind
      · have hnone : ∀ tag, data = .text tag → Kind.ofTag? tag = none := by
          intro tag htag
          rw [Option.eq_none_iff_forall_ne_some]
          exact fun kind hkind => hknown ⟨tag, kind, htag, hkind⟩
        rw [ofJson_unmodelled hk hc hnone, ofJson_unmodelled hk' hc hnone]
        exact .ok (.unknown data ⟨depth + 1, .object h⟩)

theorem valueOf_shuffledUpTo (depth : Nat) : ReadAlike depth := by
  induction depth with
  | zero =>
    intro data data' h _
    obtain rfl : data = data' := h
    exact .refl .same _
  | succ depth ih =>
    intro data data' h hone
    cases h with
    | same => exact .refl .same _
    | array h =>
      rw [valueOf, valueOf, valuesOf_eq, valuesOf_eq]
      refine (EndsAlike.mapM (R := Value.Recast) h fun before x after y hsplit hbefore hxy => ?_).bind
        fun vs vs' _ _ hvs => .ok (.tuple hvs)
      subst hsplit
      exact ih x y hxy fun object hreach => hone object (.item hbefore hreach)
    | object h =>
      rw [valueOf, valueOf]
      exact (ofJson_level_shuffled ih h hone).bind fun n n' _ _ hn => .ok (.node hn)

/-- **Reading an object looks only at what it knows.** It gives the same node, or fails with the same fault, when it
and objects in it, at any depth, lose fields that are not read. If it comes to no ambiguous object, it also answers or
fails as before when keys, at any depth, stand in another order, and the nodes are the same up to the order of keys in
the objects that are kept as they were read. -/
theorem ofJson_looks_at_known (fields : List (Text × Json)) :
    (∀ data, Json.Pruned (.object fields) data → ofJson (.object fields) = ofJson data) ∧
      ∀ data, Shuffled (.object fields) data → (∀ object, Reaches (.object fields) object → Unambiguous object) →
        EndsAlike Recast (ofJson (.object fields)) (ofJson data) := by
  refine ⟨fun data h => ofJson_pruned h, fun data ⟨depth, h⟩ hone => ?_⟩
  cases depth with
  | zero =>
    rw [show .object fields = data from h]
    exact .refl .refl _
  | succ depth =>
    cases h with
    | same => exact .refl .refl _
    | object h => exact ofJson_level_shuffled (valueOf_shuffledUpTo depth) h hone

/-- a type of a kind without a model -/
def futureType : List (Text × Json) :=
  [(Text.ofString "kind", .text "futureTypeNode"), (Text.ofString "width", .int 3)]

/-- a field of that type, and something else that is not read; as a node it would be malformed -/
def widthField : List (Text × Json) := [
  (Text.ofString "kind", .text "structFieldTypeNode"), (Text.ofString "name", .text "width"),
  (Text.ofString "typo", .object []), (Text.ofString "type", .object futureType)]

/-- the field without what is not read -/
def widthFieldRead : Json := .object [
  (Text.ofString "kind", .text "structFieldTypeNode"), (Text.ofString "name", .text "width"),
  (Text.ofString "type", .object futureType)]

/-- the field in another order, and its type too -/
def widthFieldTurned : Json := .object [
  (Text.ofString "type", .object futureType.reverse), (Text.ofString "typo", .object []),
  (Text.ofString "name", .text "width"), (Text.ofString "kind", .text "structFieldTypeNode")]

theorem widthField_kind : Json.kindOf? widthField = some (.text "structFieldTypeNode") ∧
    Kind.ofTag? "structFieldTypeNode" = some .structFieldType := by
  refine ⟨rfl, ?_⟩
  decide +kernel

theorem futureType_unmodelled {tag : Text} {kind : Kind} (htag : Json.kindOf? futureType = some (.text tag)) :
    Kind.ofTag? tag ≠ some kind := by
  have hnone : Kind.ofTag? "futureTypeNode" = none := by decide +kernel
  intro hkind
  cases htag
  cases hnone.symm.trans hkind

theorem widthField_used :
    usedFields .structFieldType widthField = [(.name, .text "width"), (.type, .object futureType)] := by
  have hname : Attr.ofKey? (Text.ofString "name") = some .name := by decide +kernel
  have htype : Attr.ofKey? (Text.ofString "type") = some .type := by decide +kernel
  have htypo : Attr.ofKey? (Text.ofString "typo") = none := by decide +kernel
  have hkey : ∀ key ∈ ["name", "typo", "type"].map Text.ofString, key ≠ Text.ofString "kind" := by decide
  simp only [List.map_cons, List.forall_mem_cons] at hkey
  simp only [widthField, usedFields, List.filterMap_cons, fieldFor?, hkey, hname, htype, htypo, if_true, if_false]
  rfl

theorem widthField_unambiguous {object : List (Text × Json)} (h : Reaches (.object widthField) object) :
    Unambiguous object := by
  rcases h.object_cases with rfl | ⟨tag, kind, e, he, htag, hkind, h⟩
  · refine ⟨by decide, fun htag hkind => ?_⟩
    cases widthField_kind.1.symm.trans htag
    cases widthField_kind.2.symm.trans hkind
    rw [widthField_used]
    decide
  · cases widthField_kind.1.symm.trans htag
    cases widthField_kind.2.symm.trans hkind
    rw [widthField_used, List.mem_pair] at he
    rcases he with rfl | rfl
    · cases h
    · rcases h.object_cases with rfl | ⟨tag, kind, e, -, htag, hkind, -⟩
      · exact ⟨by decide, fun htag hkind => absurd hkind (futureType_unmodelled htag)⟩
      · exact absurd hkind (futureType_unmodelled htag)

theorem width_field_read_alike :
    Json.Pruned (.object widthField) widthFieldRead ∧ Shuffled (.object widthField) widthFieldTurned ∧
      (∀ object, Reaches (.object widthField) object → Unambiguous object) ∧
      ofJson (.object widthField) = ofJson widthFieldRead ∧
      EndsAlike Recast (ofJson (.object widthField)) (ofJson widthFieldTurned) := by
  have hpruned : Json.Pruned (.object widthField) widthFieldRead := by
    have hunread : Unread .structFieldType (Text.ofString "typo") := by decide +kernel
    refine ⟨1, .object widthField_kind.1 widthField_kind.2 ?_⟩
    exact .keep (.mk _ rfl) (.keep (.mk _ rfl) (.drop hunread _ (.keep (.mk _ rfl) .nil)))
  have hshuffled : Shuffled (.object widthField) widthFieldTurned := by
    have htype : ShuffledUpTo 1 (.object futureType) (.object futureType.reverse) :=
      .object ⟨futureType.reverse, (List.reverse_perm _).symm, List.forall₂_same.2 fun e _ => .mk e.1 rfl⟩
    refine ⟨2, .object ⟨widthField.reverse, (List.reverse_perm _).symm, ?_⟩⟩
    exact .cons (.mk _ htype) (.cons (.mk _ (.same _)) (.cons (.mk _ (.same _)) (.cons (.mk _ (.same _)) .nil)))
  have hone : ∀ object, Reaches (.object widthField) object → Unambiguous object :=
    fun _ h => widthField_unambiguous h
  exact ⟨hpruned, hshuffled, hone, (ofJson_looks_at_known widthField).1 _ hpruned,
    (ofJson_looks_at_known widthField).2 _ hshuffled hone⟩

end Node

end InterfacePages
