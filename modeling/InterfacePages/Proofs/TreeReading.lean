/-
How reading a tree ends.

An object becomes a node by its kind and by the fields that name attributes of the kind, which are read in order
(`ofJson_known`), and reading stops at its first fault. Such a fault is about a malformed node, unless reading comes to
an object whose kind is itself an array or an object: a kind like that cannot be looked up. `Stumbles` says that reading
comes to one; this is the only other way to fail (`valueOf_fault`, `Stumbles.valueOf_eq`). So a text is read as a tree
or reported, unless a whole number in it is too long, it is nested too deep or reading stumbles (`reading_reports`).
-/
import InterfacePages.Command.Run
import InterfacePages.Proofs.FirstFaults

namespace InterfacePages

namespace Json

def isCollection : Json → Bool
  | .array _ => true
  | .object _ => true
  | _ => false

def kindOf? (fields : List (Text × Json)) : Option Json := OrderedMap.lookupIn (Text.ofString "kind") fields

end Json

namespace Node

/-! ## Attributes that are read -/

def fieldFor? (kind : Kind) (field : Text × Json) : Option (Attr × Json) :=
  if field.1 = Text.ofString "kind" then none
  else (Attr.ofKey? field.1).bind fun a => if admits kind a then some (a, field.2) else none

/-- the fields that give attributes to a node of a kind, in order -/
def usedFields (kind : Kind) (fields : List (Text × Json)) : List (Attr × Json) := fields.filterMap (fieldFor? kind)

def readField (field : Attr × Json) : Except Fault (Attr × Value) := do return (field.1, ← valueOf field.2)

/-- of two values for an attribute the later counts -/
def give (given : List (Attr × Value)) (field : Attr × Value) : List (Attr × Value) :=
  OrderedMap.upsertIn field.1 (fun _ => field.2) given

theorem givenOf_eq (kind : Kind) (fields : List (Text × Json)) (done : List (Attr × Value)) :
    givenOf kind fields done = do return (← (usedFields kind fields).mapM readField).foldl give done := by
  induction fields generalizing done with
  | nil => rw [givenOf]; rfl
  | cons field rest ih =>
    obtain ⟨key, data⟩ := field
    rw [givenOf, usedFields, List.filterMap_cons, fieldFor?]
    by_cases hkey : key = Text.ofString "kind"
    · rw [if_pos hkey, if_pos hkey]
      exact ih done
    · rw [if_neg hkey, if_neg hkey]
      cases Attr.ofKey? key with
      | none => exact ih done
      | some a =>
        rw [Option.bind_some]
        dsimp only
        by_cases ha : admits kind a = true
        · rw [if_pos ha, if_pos ha, List.mapM_cons, readField]
          simp only [bind_assoc, pure_bind, List.foldl_cons, ih]
          rfl
        · rw [if_neg ha, if_neg ha]
          exact ih done

theorem valuesOf_eq (items : List Json) : valuesOf items = items.mapM valueOf := by
  induction items with
  | nil => rw [valuesOf]; rfl
  | cons data rest ih => rw [valuesOf, List.mapM_cons, ih]

/-- an object of a modelled kind is the node made of what its fields give -/
theorem ofJson_known {fields : List (Text × Json)} {tag : Text} {kind : Kind}
    (htag : Json.kindOf? fields = some (.text tag)) (hkind : Kind.ofTag? tag = some kind) :
    ofJson (.object fields) =
      (usedFields kind fields).mapM readField >>= fun given => make kind (given.foldl give []) := by
  unfold Json.kindOf? at htag
  rw [ofJson, htag]
  dsimp only
  rw [hkind]
  dsimp only
  rw [givenOf_eq]
  simp only [bind_assoc, pure_bind]

/-- an object of another kind is kept as it stands -/
theorem ofJson_unknown {fields : List (Text × Json)} {tag : Text}
    (htag : Json.kindOf? fields = some (.text tag)) (hkind : Kind.ofTag? tag = none) :
    ofJson (.object fields) = .ok (.unknown (.text tag) fields) := by
  unfold Json.kindOf? at htag
  rw [ofJson, htag]
  dsimp only
  rw [hkind]

/-! ## Faults of nodes -/

/-- a fault is about a malformed node -/
def Malformed (fault : Fault) : Prop := ∃ cause, fault = .invalidNode cause

theorem storedName_fault (kind : Kind) (v : Value) : FailsOnly Malformed (storedName kind v) := by
  unfold storedName
  split
  · exact .ok _
  · split
    · exact .ok _
    · exact .error ⟨_, rfl⟩

theorem storeName_fault (kind : Kind) (attributes : List (Attr × Value)) :
    FailsOnly Malformed (storeName kind attributes) := by
  induction attributes with
  | nil => exact .ok _
  | cons e rest ih =>
    obtain ⟨a, v⟩ := e
    have hrest : ∀ here : Attr × Value, FailsOnly Malformed (do return here :: (← storeName kind rest)) :=
      fun _ => ih.bind fun _ _ => .ok _
    by_cases ha : a = .name
    · subst ha
      exact (storedName_fault kind v).bind fun _ _ => hrest _
    · rw [storeName]
      · exact hrest (a, v)
      · exact ha

theorem make_fault (kind : Kind) (given : List (Attr × Value)) : FailsOnly Malformed (make kind given) := by
  unfold make
  split
  · exact (storeName_fault kind _).bind fun _ _ => .ok _
  · exact .error ⟨_, rfl⟩

/-! ## Kinds that cannot be looked up -/

/-- reading data comes to an object whose kind is an array or an object before it comes to any other fault -/
inductive Stumbles : Json → Prop
  | kind {fields : List (Text × Json)} {data : Json} (h : Json.kindOf? fields = some data)
      (hdata : data.isCollection = true) : Stumbles (.object fields)
  | field {fields : List (Text × Json)} {tag : Text} {kind : Kind} {a : Attr} {data : Json}
      {before after : List (Attr × Json)} (htag : Json.kindOf? fields = some (.text tag))
      (hkind : Kind.ofTag? tag = some kind) (hused : usedFields kind fields = before ++ (a, data) :: after)
      (hbefore : ∀ e ∈ before, ∃ v, valueOf e.2 = .ok v) (h : Stumbles data) : Stumbles (.object fields)
  | item {before after : List Json} {data : Json} (hbefore : ∀ x ∈ before, ∃ v, valueOf x = .ok v)
      (h : Stumbles data) : Stumbles (.array (before ++ data :: after))

theorem readField_ok {field : Attr × Json} : (∃ given, readField field = .ok given) ↔ ∃ v, valueOf field.2 = .ok v := by
  unfold readField
  cases valueOf field.2 with
  | ok v => exact ⟨fun _ => ⟨v, rfl⟩, fun _ => ⟨_, rfl⟩⟩
  | error e => exact ⟨fun ⟨_, h⟩ => (nomatch h), fun ⟨_, h⟩ => nomatch h⟩

theorem readField_error {field : Attr × Json} {fault : Fault} :
    readField field = .error fault ↔ valueOf field.2 = .error fault := by
  unfold readField
  cases valueOf field.2 <;> simp [bind, Except.bind, pure, Except.pure]

theorem valueOf_object (fields : List (Text × Json)) {fault : Fault} :
    valueOf (.object fields) = .error fault ↔ ofJson (.object fields) = .error fault := by
  rw [valueOf]
  cases ofJson (.object fields) <;> simp [bind, Except.bind, pure, Except.pure]

theorem Stumbles.valueOf_eq {data : Json} (h : Stumbles data) : valueOf data = .error .wrongType := by
  induction h with
  | @kind fields data h hdata =>
    rw [valueOf_object, ofJson]
    unfold Json.kindOf? at h
    rw [h]
    cases data with
    | array items => rfl
    | object fields => rfl
    | _ => cases hdata
  | field htag hkind hused hbefore _ ih =>
    rw [valueOf_object, ofJson_known htag hkind, except_bind_error, hused]
    refine .inl (mapM_eq_error.2 ⟨_, _, _, rfl, fun e he => readField_ok.2 (hbefore e he), ?_⟩)
    exact readField_error.2 ih
  | item hbefore _ ih =>
    rw [valueOf, valuesOf_eq, except_bind_error]
    exact .inl (mapM_eq_error.2 ⟨_, _, _, rfl, hbefore, ih⟩)

theorem sizeOf_usedFields {kind : Kind} {fields : List (Text × Json)} {field : Attr × Json}
    (h : field ∈ usedFields kind fields) : sizeOf field.2 < sizeOf fields := by
  obtain ⟨⟨key, data⟩, hmem, hfield⟩ := List.mem_filterMap.1 h
  have hlt := List.sizeOf_lt_of_mem hmem
  unfold fieldFor? at hfield
  split at hfield
  · cases hfield
  · obtain ⟨a, _, hfield⟩ := Option.bind_eq_some_iff.1 hfield
    split at hfield
    · cases hfield
      simp only [Prod.mk.sizeOf_spec] at hlt ⊢
      omega
    · cases hfield

/-- reading some data fails only with a fault about a malformed node or because it stumbles -/
def Accounted (data : Json) : Prop := FailsOnly (fun fault => Malformed fault ∨ Stumbles data) (valueOf data)

theorem accounted_items {items : List Json} (h : ∀ x ∈ items, Accounted x) : Accounted (.array items) := by
  intro fault hfault
  rw [valueOf, valuesOf_eq] at hfault
  rcases except_bind_error.1 hfault with hfault | ⟨_, _, hfault⟩
  · obtain ⟨before, x, after, rfl, hbefore, hx⟩ := mapM_eq_error.1 hfault
    exact (h x (List.mem_append_right _ List.mem_cons_self) fault hx).imp_right (.item hbefore)
  · cases hfault

theorem accounted_fields {fields : List (Text × Json)} (h : ∀ kind, ∀ e ∈ usedFields kind fields, Accounted e.2) :
    Accounted (.object fields) := by
  intro fault hfault
  rw [valueOf_object] at hfault
  cases hkind : Json.kindOf? fields with
  | none =>
    unfold Json.kindOf? at hkind
    rw [ofJson, hkind] at hfault
    cases hfault
    exact .inl ⟨_, rfl⟩
  | some kind =>
    cases kind with
    | array items => exact .inr (.kind hkind rfl)
    | object fields => exact .inr (.kind hkind rfl)
    | text tag =>
      cases hk : Kind.ofTag? tag with
      | none =>
        unfold Json.kindOf? at hkind
        simp [ofJson, hkind, hk] at hfault
      | some kind =>
        rw [ofJson_known hkind hk] at hfault
        rcases except_bind_error.1 hfault with hfault | ⟨given, _, hfault⟩
        · obtain ⟨before, ⟨a, x⟩, after, hused, hbefore, hx⟩ := mapM_eq_error.1 hfault
          have hmem : (a, x) ∈ usedFields kind fields := hused ▸ List.mem_append_right _ List.mem_cons_self
          refine (h kind _ hmem fault (readField_error.1 hx)).imp_right fun hs => ?_
          exact .field hkind hk hused (fun e he => readField_ok.1 (hbefore e he)) hs
        · exact .inl (make_fault kind _ fault hfault)
    | _ =>
      unfold Json.kindOf? at hkind
      simp [ofJson, hkind] at hfault

/-- **Reading data fails only with a fault about a malformed node or because it stumbles.** -/
theorem valueOf_fault (data : Json) : Accounted data := by
  match data with
  | .array items => exact accounted_items fun x _ => valueOf_fault x
  | .object fields => exact accounted_fields fun _ e he => valueOf_fault e.2
  | .null | .bool _ | .int _ | .float _ | .text _ =>
    intro fault h
    simp [valueOf] at h
termination_by sizeOf data
decreasing_by
  · have hlt := List.sizeOf_lt_of_mem ‹x ∈ items›
    simp only [Json.array.sizeOf_spec]
    omega
  · have hlt := sizeOf_usedFields he
    simp only [Json.object.sizeOf_spec]
    omega

/-! ## Trees -/

/-- why reading a text fails with anything but a report: a whole number is too long, data are nested too deep, or an
object that is to be a node has a kind that cannot be looked up -/
inductive Escapes (t : Text) : Fault → Prop
  | digits {count : Nat} (h : Json.read t = .error (.tooManyDigits count)) : Escapes t (.tooManyDigits count)
  | depth {container : Json.Container} (h : Json.read t = .error (.tooDeep container)) : Escapes t (.tooDeep container)
  | kind {fields : List (Text × Json)} (h : Json.read t = .ok (.object fields)) (hs : Stumbles (.object fields)) :
      Escapes t .wrongType

theorem asRoot_ok {n root : Node} (h : asRoot n = .ok root) : root.isKind .root = true := by
  unfold asRoot at h
  split at h
  · cases h
    rfl
  · split at h
    · next hroot =>
      cases h
      exact hroot
    · cases h

theorem asRoot_fault (n : Node) : FailsOnly Malformed (asRoot n) := by
  unfold asRoot
  split
  · exact .ok _
  · split
    · exact .ok _
    · exact .error ⟨_, rfl⟩

theorem rootOfText_ok {t : Text} {root : Node} (h : rootOfText t = .ok root) : root.isKind .root = true := by
  unfold rootOfText at h
  split at h
  · obtain ⟨n, _, h⟩ := except_bind_ok.1 h
    exact asRoot_ok h
  all_goals cases h

theorem rootOfText_fault (t : Text) : FailsOnly (fun fault => Malformed fault ∨ Escapes t fault) (rootOfText t) := by
  unfold rootOfText
  split
  · next data hread =>
    refine .bind (fun fault h => ?_) fun n _ => (asRoot_fault n).imp fun _ => .inl
    cases data with
    | object fields =>
      refine (valueOf_fault (.object fields) fault ((valueOf_object fields).2 h)).imp_right fun hs => ?_
      cases ((valueOf_object fields).2 h).symm.trans hs.valueOf_eq
      exact .kind hread hs
    | _ =>
      simp only [ofJson] at h
      cases h
      exact .inl ⟨_, rfl⟩
  · exact .error (.inl ⟨_, rfl⟩)
  · next hread => exact .error (.inr (.digits hread))
  · next hread => exact .error (.inr (.depth hread))

theorem Escapes.rootOfText_eq {t : Text} {fault : Fault} (h : Escapes t fault) : rootOfText t = .error fault := by
  unfold rootOfText
  cases h with
  | digits h => rw [h]
  | depth h => rw [h]
  | kind h hs =>
    rw [h]
    exact except_bind_error.2 (.inl ((valueOf_object _).1 hs.valueOf_eq))

/-- an outcome is a tree, or a fault by which a malformed one is reported -/
def ReadOrReported (report : Fault → Prop) (x : Except Fault Node) : Prop :=
  (∃ root, x = .ok root ∧ root.isKind .root = true) ∨ ∃ fault, x = .error fault ∧ report fault

theorem Escapes.not_malformed {t : Text} {fault : Fault} (h : Escapes t fault) : ¬ Malformed fault := by
  rintro ⟨cause, rfl⟩
  cases h

theorem rootOfText_cases (t : Text) :
    ReadOrReported Malformed (rootOfText t) ∨ ∃ fault, Escapes t fault ∧ rootOfText t = .error fault := by
  cases h : rootOfText t with
  | ok root => exact .inl (.inl ⟨root, rfl, rootOfText_ok h⟩)
  | error fault =>
    rcases rootOfText_fault t fault h with hm | he
    · exact .inl (.inr ⟨fault, rfl, hm⟩)
    · exact .inr ⟨fault, he, rfl⟩

theorem rootOfText_iff (t : Text) : ReadOrReported Malformed (rootOfText t) ↔ ∀ fault, ¬ Escapes t fault := by
  constructor
  · intro h fault he
    rw [he.rootOfText_eq] at h
    rcases h with ⟨_, h, _⟩ | ⟨_, h, hm⟩
    · cases h
    · cases h
      exact he.not_malformed hm
  · exact fun h => (rootOfText_cases t).resolve_right fun ⟨fault, he, _⟩ => h fault he

end Node

namespace Command

open Node (Malformed Escapes ReadOrReported)

/-- a fault by which the settings report a malformed tree -/
def TreeReport (fault : Fault) : Prop := ∃ message suggestion, fault = configFault .invalidTree message suggestion

/-- a tree in a file is read like a tree in a text, but malformed ones are reported as the settings do -/
theorem readTree_cases {store : Files.Store} {path : Files.Path} {octets : List UInt8} {t : Text}
    (hread : store.read path = .ok octets) (ht : Formatter.decoded octets = .ok t) :
    ReadOrReported TreeReport (readTree store path) ∨ ∃ fault, Escapes t fault ∧ readTree store path = .error fault := by
  unfold readTree
  simp only [hread, ht, bind, Except.bind]
  rcases Node.rootOfText_cases t with (⟨root, hroot, hkind⟩ | ⟨_, hfault, cause, rfl⟩) | ⟨fault, he, hfault⟩
  · rw [hroot]
    exact .inl (.inl ⟨root, rfl, hkind⟩)
  · rw [hfault]
    exact .inl (.inr ⟨_, rfl, _, _, rfl⟩)
  · rw [hfault]
    refine .inr ⟨fault, he, ?_⟩
    cases he <;> rfl

theorem readTree_escapes {store : Files.Store} {path : Files.Path} {octets : List UInt8} {t : Text}
    (hread : store.read path = .ok octets) (ht : Formatter.decoded octets = .ok t) {fault : Fault}
    (h : Escapes t fault) : readTree store path = .error fault ∧ ¬ TreeReport fault := by
  unfold readTree
  simp only [hread, ht, bind, Except.bind]
  rw [h.rootOfText_eq]
  cases h <;> exact ⟨rfl, fun ⟨_, _, h⟩ => nomatch h⟩

/-- **Reading reports malformed trees.** A text is read as a tree or reported as malformed exactly if reading it does
not escape, and a file that holds it is read or reported under the same condition; where reading escapes, both fail with
the fault that it escapes by. -/
theorem reading_reports (t : Text) :
    (ReadOrReported Malformed (Node.rootOfText t) ↔ ∀ fault, ¬ Escapes t fault) ∧
      (∀ fault, Escapes t fault → Node.rootOfText t = .error fault) ∧
      ∀ store path octets, Files.Store.read store path = .ok octets → Formatter.decoded octets = .ok t →
        (ReadOrReported TreeReport (readTree store path) ↔ ∀ fault, ¬ Escapes t fault) ∧
          ∀ fault, Escapes t fault → readTree store path = .error fault := by
  refine ⟨Node.rootOfText_iff t, fun fault h => h.rootOfText_eq, fun store path octets hread ht => ⟨?_, ?_⟩⟩
  · constructor
    · intro h fault he
      obtain ⟨heq, hreport⟩ := readTree_escapes hread ht he
      rw [heq] at h
      rcases h with ⟨_, h, _⟩ | ⟨_, h, hr⟩
      · cases h
      · cases h
        exact hreport hr
    · exact fun h => (readTree_cases hread ht).resolve_right fun ⟨fault, he, _⟩ => h fault he
  · exact fun fault he => (readTree_escapes hread ht he).1

/-- a tree of a kind without a model, as a file holds it -/
def strayFile : Text := "\x7b\"kind\": \"strayNode\"\x7d"

/-- a system with that file in its working folder -/
def strayStore : Files.Store :=
  Files.Store.fresh.put (["work", "stray.json"].map Text.ofString) (.file (strayFile.map Nat.toUInt8))

/-- an object with nothing but a kind that is a certain text -/
def hasOnlyKind (tag : Text) : Json → Bool
  | .object [(key, .text t)] => key == "kind" && t == tag
  | _ => false

theorem stray_reported_from_file :
    strayStore.read (.ofText "stray.json") = .ok (strayFile.map Nat.toUInt8) ∧
      Formatter.decoded (strayFile.map Nat.toUInt8) = .ok strayFile ∧
      ReadOrReported TreeReport (readTree strayStore (.ofText "stray.json")) := by
  have hoctets : (strayStore.read (.ofText "stray.json")).toOption.any (· == strayFile.map Nat.toUInt8) = true := by
    decide +kernel
  have ht : (Formatter.decoded (strayFile.map Nat.toUInt8)).toOption.any (· == strayFile) = true := by decide +kernel
  have hdata : (Json.read strayFile).toOption.any (hasOnlyKind "strayNode") = true := by decide +kernel
  obtain ⟨octets, hread, hoctets⟩ := any_toOption.1 hoctets
  obtain ⟨t, htext, ht⟩ := any_toOption.1 ht
  obtain rfl : octets = strayFile.map Nat.toUInt8 := beq_iff_eq.1 hoctets
  obtain rfl : t = strayFile := beq_iff_eq.1 ht
  have hroot : ReadOrReported Malformed (Node.rootOfText strayFile) := by
    obtain ⟨data, hjson, hdata⟩ := any_toOption.1 hdata
    unfold hasOnlyKind at hdata
    split at hdata
    · next key t =>
      rw [Bool.and_eq_true, beq_iff_eq, beq_iff_eq] at hdata
      obtain ⟨rfl, rfl⟩ := hdata
      have htag : Json.kindOf? [(Text.ofString "kind", .text "strayNode")] = some (.text "strayNode") := by
        rw [Json.kindOf?, OrderedMap.lookupIn, if_pos rfl]
      have hkind : Kind.ofTag? (Text.ofString "strayNode") = none := by decide +kernel
      refine .inr ⟨.invalidNode (.notARoot "strayNode"), ?_, ⟨_, rfl⟩⟩
      simp only [Node.rootOfText, hjson, Node.rootOfJson, Node.ofJson_unknown htag hkind, bind, Except.bind]
      rfl
    · cases hdata
  exact ⟨hread, htext, ((reading_reports strayFile).2.2 _ _ _ hread htext).1.2 ((reading_reports strayFile).1.1 hroot)⟩

/-- the kind of an object is an array or an object -/
def misfiled : Json → Bool
  | .object fields => (Json.kindOf? fields).any Json.isCollection
  | _ => false

/-- an object whose kind is an array is neither read nor reported -/
theorem array_kind_escapes : Node.rootOfText "\x7b\"kind\": []\x7d" = .error .wrongType ∧
    ¬ ReadOrReported Malformed (Node.rootOfText "\x7b\"kind\": []\x7d") := by
  have hkind : (Json.read "\x7b\"kind\": []\x7d").toOption.any misfiled = true := by decide +kernel
  obtain ⟨data, hread, hdata⟩ := any_toOption.1 hkind
  cases data with
  | object fields =>
    obtain ⟨kind, hkind, hcollection⟩ := (Option.any_eq_true _ _).1 hdata
    have hescapes : Escapes "\x7b\"kind\": []\x7d" .wrongType := .kind hread (.kind hkind hcollection)
    exact ⟨hescapes.rootOfText_eq, fun h => (Node.rootOfText_iff _).1 h _ hescapes⟩
  | _ => cases hdata

end Command

end InterfacePages
