/-
Names that are stored a second time.

A stored name is in camel case, and wherever it is used it is brought into camel case again. It has no separators left,
so it falls into words at its ASCII capitals only, and behind the first letter of each word everything becomes lower
case (`camelCase_strung`). That keeps the name just when it was so before: when the name is settled. ASCII names are
(`settled_ascii`), and so is every name that is stored twice (`settled_again`). A word that begins with a capital above
ASCII is not found again, since only ASCII capitals begin words; and a sharp s at the beginning comes back as two
letters.
-/
import InterfacePages.Docs.Program
import InterfacePages.Proofs.IndexModules
import InterfacePages.Proofs.LinkTables
import InterfacePages.Proofs.SpellingAgreement

namespace InterfacePages

namespace Name

open Text (lower lowerOne recased append_fixed)

/-! ## Words -/

/-- the first letter of a name in Pascal case is what the upper case of a letter begins with -/
theorem pascalCase_head {s : Text} {p : Nat} {rest : Text} (h : pascalCase s = p :: rest) : Text.upperOne p = [p] := by
  rw [pascalCase, capitalizedWords_eq] at h
  cases hw : words s with
  | nil =>
    rw [hw] at h
    cases h
  | cons w ws =>
    obtain ⟨c, u, rfl⟩ := List.exists_cons_of_ne_nil (isWord_of_mem_words (hw ▸ List.mem_cons_self)).nonempty
    obtain ⟨d, others, hd⟩ := List.exists_cons_of_ne_nil (raised_upperOne c).2
    rw [hw, List.map_cons, List.flatten_cons, capitalized_cons, hd] at h
    have hp : d = p := (List.cons.inj h).1
    exact Text.upperOne_head (c := c) (by rw [hd, hp]; rfl)

/-- a word that begins with a capital keeps it -/
theorem capitalized_high {w : Text} (h : BeginsHigh w) : ∃ c u, w = c :: u ∧ Text.isCapital c = true ∧
    capitalized w = c :: lower u := by
  obtain ⟨c, u, rfl, hc⟩ := h
  have hlt : c < 128 := by
    simp only [Text.isCapital, Bool.and_eq_true, decide_eq_true_eq] at hc
    omega
  refine ⟨c, u, rfl, hc, ?_⟩
  rw [capitalized_cons, Text.upperOne_ascii hlt, Text.big_capital hc]
  rfl

theorem length_capitalized_high {w : Text} (h : BeginsHigh w) : w.length ≤ (capitalized w).length := by
  obtain ⟨c, u, rfl, -, hw⟩ := capitalized_high h
  rw [hw]
  exact Nat.succ_le_succ (Text.length_lower u)

theorem length_flatten_map {f : Text → Text} {ws : List Text} (h : ∀ w ∈ ws, w.length ≤ (f w).length) :
    ws.flatten.length ≤ (ws.map f).flatten.length := by
  induction ws with
  | nil => exact Nat.zero_le _
  | cons w rest ih =>
    rw [List.forall_mem_cons] at h
    rw [List.map_cons, List.flatten_cons, List.flatten_cons, List.length_append, List.length_append]
    exact Nat.add_le_add h.1 (ih h.2)

/-- texts that a map makes no shorter follow each other as before just when the map keeps each of them -/
theorem flatten_fixed {f : Text → Text} {ws : List Text} (h : ∀ w ∈ ws, w.length ≤ (f w).length) :
    (ws.map f).flatten = ws.flatten ↔ ∀ w ∈ ws, f w = w := by
  induction ws with
  | nil => exact ⟨fun _ _ hw => absurd hw List.not_mem_nil, fun _ => rfl⟩
  | cons w rest ih =>
    rw [List.forall_mem_cons] at h ⊢
    rw [List.map_cons, List.flatten_cons, List.flatten_cons, append_fixed h.1 (length_flatten_map h.2), ih h.2]

/-- **In a name without separators the first letter goes to upper case and back, and all but the capitals that begin
the other words becomes lower case.** -/
theorem camelCase_strung {c : Nat} {t : Text} (ht : Solid (c :: t)) : ∃ (first : Text) (rest : List Text),
    first ++ rest.flatten = t ∧ IsWord (c :: first) ∧ (∀ w ∈ rest, IsWord w ∧ BeginsHigh w) ∧
      camelCase (c :: t) = recased c ++ (lower first ++ (rest.map capitalized).flatten) := by
  obtain ⟨first, rest, hwords, hflat, hraise⟩ := words_solid ht
  have hword : ∀ w ∈ words (c :: t), IsWord w := fun w hw => isWord_of_mem_words hw
  rw [hwords, List.forall_mem_cons] at hword
  refine ⟨first, rest, hflat, hword.1, fun w hw => ⟨hword.2 w hw, hraise w hw⟩, ?_⟩
  obtain ⟨d, others, hd⟩ := List.exists_cons_of_ne_nil (raised_upperOne c).2
  have hpascal : pascalCase (c :: t) = d :: (others ++ (lower first ++ (rest.map capitalized).flatten)) := by
    rw [pascalCase, capitalizedWords_eq, hwords, List.map_cons, List.flatten_cons, capitalized_cons, hd]
    simp
  rw [camelCase_cons hpascal, recased, hd, ← List.append_assoc]
  rfl

/-! ## Settled names -/

/-- a code point is kept inside a name: as an ASCII capital, or because it is in lower case -/
def Kept (c : Nat) : Prop := Text.isCapital c = true ∨ lowerOne c = [c]

/-- a name keeps what is behind its first letter and does not begin with a sharp s -/
def Settled (t : Text) : Prop := t.head? ≠ some 0xDF ∧ ∀ c ∈ t.tail, Kept c

instance (t : Text) : Decidable (Settled t) := by unfold Settled Kept; infer_instance

theorem length_recased (c : Nat) : 1 ≤ (recased c).length := by
  obtain ⟨d, others, hd⟩ := List.exists_cons_of_ne_nil (raised_upperOne c).2
  have hone := (length_lower_singleton d).1
  rw [recased, hd, List.length_append]
  exact Nat.le_trans hone (Nat.le_add_right ..)

theorem camelCase_strung_fixed {c : Nat} {t : Text} (ht : Solid (c :: t)) :
    camelCase (c :: t) = c :: t ↔ recased c = [c] ∧ ∀ d ∈ t, Kept d := by
  obtain ⟨first, rest, rfl, hfirst, hrest, hcamel⟩ := camelCase_strung ht
  have hlength : ∀ w ∈ rest, w.length ≤ (capitalized w).length := fun w hw => length_capitalized_high (hrest w hw).2
  have hflatten := length_flatten_map hlength
  have hone : [c].length ≤ (recased c).length := length_recased c
  have hall : (first ++ rest.flatten).length ≤ (lower first ++ (rest.map capitalized).flatten).length := by
    simp only [List.length_append]
    exact Nat.add_le_add (Text.length_lower first) hflatten
  rw [hcamel, ← List.singleton_append, append_fixed hone hall, append_fixed (Text.length_lower first) hflatten,
    Text.lower_fixed, flatten_fixed hlength]
  refine and_congr_right' ⟨fun ⟨hf, hr⟩ d hd => ?_, fun h => ⟨fun d hd => ?_, fun w hw => ?_⟩⟩
  · rcases List.mem_append.1 hd with hd | hd
    · exact .inr (hf d hd)
    · obtain ⟨w, hw, hdw⟩ := List.mem_flatten.1 hd
      have hkeep := hr w hw
      obtain ⟨e, u, rfl, he, hcap⟩ := capitalized_high (hrest w hw).2
      rw [hcap, List.cons.injEq, Text.lower_fixed] at hkeep
      rcases List.mem_cons.1 hdw with rfl | hdu
      · exact .inl he
      · exact .inr (hkeep.2 d hdu)
  · refine (h d (List.mem_append_left _ hd)).resolve_left fun hcapital => ?_
    rw [hfirst.plain d hd] at hcapital
    cases hcapital
  · obtain ⟨e, u, rfl, he, hcap⟩ := capitalized_high (hrest w hw).2
    rw [hcap, (Text.lower_fixed u).2 fun d hd => ?_]
    refine (h d (List.mem_append_right _ (List.mem_flatten.2 ⟨_, hw, List.mem_cons_of_mem e hd⟩))).resolve_left
      fun hcapital => ?_
    rw [(hrest _ hw).1.plain d hd] at hcapital
    cases hcapital

/-- the first letter of a stored name comes back from upper case unless it is the sharp s -/
theorem recased_head {s : Text} {c : Nat} {t : Text} (h : camelCase s = c :: t) : recased c = [c] ↔ c ≠ 0xDF := by
  cases hp : pascalCase s with
  | nil =>
    rw [camelCase_nil hp] at h
    cases h
  | cons p rest =>
    rw [camelCase_cons hp, Text.lower_singleton] at h
    refine Text.recased_capital (pascalCase_head hp) ?_
    obtain ⟨d, others, hd⟩ := List.exists_cons_of_length_pos (length_lowerOne p).1
    rw [hd, List.cons_append, List.cons.injEq] at h
    rw [hd, h.1]
    rfl

/-- **A stored name is stored as it is just when it is settled.** -/
theorem camelCase_fixed (s : Text) : camelCase (camelCase s) = camelCase s ↔ Settled (camelCase s) := by
  cases h : camelCase s with
  | nil => exact iff_of_true rfl ⟨by decide, fun _ hc => absurd hc List.not_mem_nil⟩
  | cons c t =>
    rw [camelCase_strung_fixed (h ▸ solid_camelCase s), recased_head h, Settled, List.head?_cons, List.tail_cons, Ne,
      Ne, Option.some.injEq]

/-- **A name that is stored twice is settled.** -/
theorem settled_again (s : Text) : Settled (camelCase (camelCase s)) := by
  cases h : camelCase s with
  | nil => exact ⟨by decide, fun _ hc => absurd hc List.not_mem_nil⟩
  | cons c t =>
    obtain ⟨first, rest, -, -, hrest, hcamel⟩ := camelCase_strung (h ▸ solid_camelCase s)
    have hkept : ∀ d ∈ lower first ++ (rest.map capitalized).flatten, Kept d := by
      intro d hd
      rcases List.mem_append.1 hd with hd | hd
      · exact .inr (Text.lower_settles hd)
      · obtain ⟨v, hv, hdv⟩ := List.mem_flatten.1 hd
        obtain ⟨w, hw, rfl⟩ := List.mem_map.1 hv
        obtain ⟨e, u, rfl, he, hcap⟩ := capitalized_high (hrest w hw).2
        rw [hcap, List.mem_cons] at hdv
        rcases hdv with rfl | hdu
        · exact .inl he
        · exact .inr (Text.lower_settles hdu)
    rw [hcamel]
    by_cases hsharp : c = 0xDF
    · -- the sharp s has become a small and a capital letter
      have htwo : recased 0xDF = [115, 83] := by decide +kernel
      rw [hsharp, htwo]
      exact ⟨fun hd => absurd (Option.some.inj hd) (by decide), List.forall_mem_cons.2 ⟨.inl (by decide), hkept⟩⟩
    · rw [(recased_head h).2 hsharp]
      exact ⟨fun hd => hsharp (Option.some.inj hd), hkept⟩

theorem settled_ascii {s : Text} (hs : Text.Ascii s) : Settled (camelCase s) := by
  have hascii := ascii_camelCase hs
  refine ⟨fun h => ?_, fun c hc => ?_⟩
  · exact absurd (hascii _ (List.mem_of_mem_head? h)) (by decide)
  · have hlt := hascii c (List.mem_of_mem_tail hc)
    unfold Kept
    cases hcapital : Text.isCapital c with
    | true => exact .inl rfl
    | false => exact .inr (by rw [Text.lowerOne_ascii hlt, Text.little_plain hcapital])

end Name

/-! ## Nodes -/

namespace Node

/-- a node of a kind was made with a name -/
def MadeWith (kind : Kind) (name : Text) (n : Node) : Prop :=
  ∃ given, OrderedMap.lookupIn .name given = some (.text name) ∧ make kind given = .ok n

/-- the value that fills a slot: the one given or else the default -/
def filling (given : List (Attr × Value)) (slot : Slot) : Value :=
  match OrderedMap.lookupIn slot.attr given, slot with
  | some v, _ => v
  | none, .required _ => .absent
  | none, .optional _ default => default

theorem fillSlots_eq (slots : List Slot) (given : List (Attr × Value)) :
    fillSlots slots given = slots.map fun slot => (slot.attr, filling given slot) := by
  refine List.map_congr_left fun slot _ => ?_
  unfold filling
  cases OrderedMap.lookupIn slot.attr given <;> cases slot <;> rfl

theorem attr?_fillSlots {slots : List Slot} {a : Attr} (ha : slots.any (·.attr == a) = true)
    {given : List (Attr × Value)} {v : Value} (hv : OrderedMap.lookupIn a given = some v) :
    ((fillSlots slots given).find? (·.1 == a)).map (·.2) = some v := by
  rw [fillSlots_eq]
  induction slots with
  | nil => cases ha
  | cons slot rest ih =>
    rw [List.map_cons, List.find?_cons]
    by_cases hs : slot.attr = a
    · have hfill : filling given slot = v := by
        unfold filling
        rw [hs, hv]
      rw [hs, hfill, beq_self_eq_true]
      rfl
    · rw [beq_eq_false_iff_ne.2 hs]
      exact ih (by simpa [hs] using ha)

theorem storedName_text (kind : Kind) (t : Text) : storedName kind (.text t) = .ok (.text (Name.camelCase t)) := by
  cases t <;> rfl

theorem attr?_storeName {kind : Kind} {attributes stored : List (Attr × Value)} {t : Text}
    (h : storeName kind attributes = .ok stored)
    (ht : (attributes.find? (·.1 == .name)).map (·.2) = some (.text t)) :
    (stored.find? (·.1 == .name)).map (·.2) = some (.text (Name.camelCase t)) := by
  induction attributes generalizing stored with
  | nil => cases ht
  | cons e rest ih =>
    obtain ⟨a, v⟩ := e
    by_cases ha : a = .name
    · subst ha
      obtain ⟨w, hw, h⟩ := except_bind_ok.1 h
      obtain ⟨others, -, h⟩ := except_bind_ok.1 h
      cases h
      cases ht
      rw [storedName_text] at hw
      cases hw
      rfl
    · rw [storeName] at h
      · obtain ⟨others, hothers, h⟩ := except_bind_ok.1 h
        cases h
        rw [List.find?_cons, beq_eq_false_iff_ne.2 ha] at ht ⊢
        exact ih hothers ht
      · exact ha

theorem MadeWith.kind {kind : Kind} {t : Text} {n : Node} (h : MadeWith kind t n) : n.kind? = some kind := by
  obtain ⟨given, -, h⟩ := h
  unfold make at h
  split at h
  · obtain ⟨stored, -, h⟩ := except_bind_ok.1 h
    cases h
    rfl
  · cases h

/-- **A node that is made with a name has it in camel case.** -/
theorem MadeWith.name {kind : Kind} (hk : admits kind .name = true) {t : Text} {n : Node} (h : MadeWith kind t n) :
    n.get .name = .ok (.text (Name.camelCase t)) := by
  obtain ⟨given, hgiven, h⟩ := h
  unfold make at h
  split at h
  · obtain ⟨stored, hstored, h⟩ := except_bind_ok.1 h
    cases h
    have hname := attr?_storeName hstored (attr?_fillSlots hk hgiven)
    rw [get, attr?, Node.attributes, hname]
  · cases h

end Node

namespace LinkTable

/-- what is found in a recorded table is found under its own kind and name -/
theorem named_of_get? {root : Node} {table : LinkTable} (h : (recordTree root).perform .empty = (.ok (), table))
    {key : LinkKey} {n : Node} (hn : table.get? key = some n) :
    n.kind? = some key.kind ∧ ∃ name, n.get .name = .ok name ∧ name.nameKey = key.name := by
  obtain ⟨ps, ess, -, hess, rfl⟩ := recordTree_ok h
  rw [get?_fileAll_empty] at hn
  obtain ⟨es, hes, he⟩ := List.mem_flatten.1 (OrderedMap.mem_of_lookupIn hn)
  obtain ⟨p, -, hentries⟩ := exists_of_forall₂ hess hes
  obtain ⟨program, -, hentries⟩ := except_bind_ok.1 hentries
  obtain ⟨pdas, -, hentries⟩ := except_bind_ok.1 hentries
  obtain ⟨accounts, -, hentries⟩ := except_bind_ok.1 hentries
  obtain ⟨types, -, hentries⟩ := except_bind_ok.1 hentries
  obtain ⟨instructions, -, hentries⟩ := except_bind_ok.1 hentries
  obtain ⟨m, -, hm⟩ := exists_of_forall₂ (mapM_eq_ok.1 hentries) he
  obtain ⟨k, name, hk, hname, heq⟩ := entryOf_ok hm
  cases heq
  exact ⟨hk, name, hname, rfl⟩

/-- in a recorded table a node is found under one name -/
theorem name_unique {root : Node} {table : LinkTable} (h : (recordTree root).perform .empty = (.ok (), table))
    {key key' : LinkKey} {n : Node} (hn : table.get? key = some n) (hn' : table.get? key' = some n) :
    key.name = key'.name := by
  obtain ⟨-, name, hname, hkey⟩ := named_of_get? h hn
  obtain ⟨-, name', hname', hkey'⟩ := named_of_get? h hn'
  rw [hname] at hname'
  cases hname'
  rw [← hkey, hkey']

section

variable {kind : Kind} {t : Text} {link : Node} {table : LinkTable} {path : List Node}

theorem admits_of_target {k : Kind} (hk : target? kind = some k) : Node.admits kind .name = true := by
  cases kind <;> first | rfl | exact nomatch hk

/-- a link that is made with a name is looked up under it in camel case -/
theorem resolve_made (h : Node.MadeWith kind t link) {k : Kind} (hk : target? kind = some k) (hne : k ≠ .program)
    {program : Value} (hprogram : programName path link = .ok (some program)) :
    table.resolve path link = .ok (table.get? ⟨program.nameKey, k, .text (Name.camelCase t)⟩) := by
  have htarget : link.kind?.bind target? = some k := by rw [h.kind]; exact hk
  rw [resolve_member htarget hne, hprogram, h.name (admits_of_target hk)]
  rfl

theorem resolve_made_program (h : Node.MadeWith kind t link) (hk : target? kind = some .program) :
    table.resolve path link =
      .ok (table.get? ⟨.text (Name.camelCase t), .program, .text (Name.camelCase t)⟩) := by
  have htarget : link.kind?.bind target? = some .program := by rw [h.kind]; exact hk
  unfold resolve
  rw [htarget, h.name (admits_of_target hk)]
  rfl

/-- what is found under a stored name is found under what is stored for that just when the name is settled -/
theorem get?_stored {root : Node} (h : (recordTree root).perform .empty = (.ok (), table)) {s : Text}
    {f : Text → LinkKey} (hkey : ∀ name, (f name).name = .text name) {d : Node}
    (hd : table.get? (f (Name.camelCase s)) = some d) :
    table.get? (f (Name.camelCase (Name.camelCase s))) = some d ↔ Name.Settled (Name.camelCase s) := by
  rw [← Name.camelCase_fixed]
  refine ⟨fun hfound => ?_, fun hs => hs.symm ▸ hd⟩
  have hname := name_unique h hfound hd
  rw [hkey, hkey] at hname
  exact NameKey.text.inj hname

end

end LinkTable

/-! ## Results -/

/-- **What is stored for a stored name.** A stored name is stored again as it is just when it is settled, and then the
paths of its page and of its module have it as it is, and a link that is made with it leads to the node of that name. A
name that is stored twice is settled, and so is a stored ASCII name. -/
theorem stored_name_settles (s : Text) :
    (Name.camelCase (Name.camelCase s) = Name.camelCase s ↔ Name.Settled (Name.camelCase s)) ∧
    Name.Settled (Name.camelCase (Name.camelCase s)) ∧
    (Text.Ascii s → Name.Settled (Name.camelCase s)) ∧
    (∀ kind n, Node.admits kind .name = true → Node.MadeWith kind s n → n.get .name = .ok (.text (Name.camelCase s))) ∧
    (∀ kind n, Node.admits kind .name = true → Node.MadeWith kind (Name.camelCase s) n →
      (n.get .name = .ok (.text (Name.camelCase s)) ↔ Name.Settled (Name.camelCase s))) ∧
    (∀ folder : Text,
      (Docs.memberPath folder (Name.camelCase s) = folder ++ "/" ++ Name.camelCase s ++ ".md" ↔
        Name.Settled (Name.camelCase s)) ∧
      (Hooks.modulePath folder (Name.camelCase (Name.camelCase s)) = Hooks.modulePath folder (Name.camelCase s) ↔
        Name.Settled (Name.camelCase s))) ∧
    ∀ root table, (LinkTable.recordTree root).perform .empty = (.ok (), table) →
      ∀ kind link, Node.MadeWith kind (Name.camelCase s) link → ∀ path d,
        (∀ k program, LinkTable.target? kind = some k → k ≠ .program →
          LinkTable.programName path link = .ok (some program) →
          table.get? ⟨program.nameKey, k, .text (Name.camelCase s)⟩ = some d →
            (table.resolve path link = .ok (some d) ↔ Name.Settled (Name.camelCase s))) ∧
        (LinkTable.target? kind = some .program →
          table.get? ⟨.text (Name.camelCase s), .program, .text (Name.camelCase s)⟩ = some d →
            (table.resolve path link = .ok (some d) ↔ Name.Settled (Name.camelCase s))) := by
  have hfixed := Name.camelCase_fixed s
  refine ⟨hfixed, Name.settled_again s, Name.settled_ascii, fun kind n hk hn => hn.name hk, fun kind n hk hn => ?_,
    fun folder => ⟨?_, ?_⟩, fun root table htable kind link hlink path d => ⟨?_, ?_⟩⟩
  · rw [hn.name hk, Except.ok.injEq, Value.text.injEq]
    exact hfixed
  · unfold Docs.memberPath
    rw [List.append_left_inj, List.append_right_inj]
    exact hfixed
  · rw [Hooks.modulePath_inj]
    exact hfixed
  · intro k program hk hne hprogram hd
    rw [LinkTable.resolve_made hlink hk hne hprogram, Except.ok.injEq]
    exact LinkTable.get?_stored htable (f := fun name => ⟨program.nameKey, k, .text name⟩) (fun _ => rfl) hd
  · intro hk hd
    rw [LinkTable.resolve_made_program hlink hk, Except.ok.injEq]
    exact LinkTable.get?_stored htable (f := fun name => ⟨.text name, .program, .text name⟩) (fun _ => rfl) hd

def typeNamed (name : Text) : Node :=
  .known .definedType (Node.fillSlots Kind.definedType.slots [(.name, .text name), (.type, .node (.known .bytesType []))])

/-- a link to a defined type with a stored name -/
def linkNamed (name : Text) : Node :=
  .known .definedTypeLink (Node.fillSlots Kind.definedTypeLink.slots [(.name, .text name)])

def shopWith (type : Node) : Node :=
  .known .program (Node.fillSlots Kind.program.slots [(.name, .text "shop"), (.definedTypes, .tuple [.node type])])

def shopTable (type : Node) : LinkTable := ((LinkTable.recordTree (shopWith type)).perform .empty).2

theorem madeWith_linkNamed (name : Text) : Node.MadeWith .definedTypeLink name (linkNamed (Name.camelCase name)) :=
  ⟨[(.name, .text name)], rfl, by cases name <;> rfl⟩

/-- only the ASCII capital begins a word of the stored name, and it is kept -/
theorem umlaut_settles : Name.camelCase "über uns" = "überUns" ∧ Name.Settled "überUns" ∧
    Name.camelCase "überUns" = "überUns" ∧ Docs.memberPath "types" "überUns" = "types/überUns.md" ∧
    (LinkTable.recordTree (shopWith (typeNamed "überUns"))).perform .empty = (.ok (), shopTable (typeNamed "überUns")) ∧
    Node.MadeWith .definedTypeLink "überUns" (linkNamed "überUns") ∧
    (shopTable (typeNamed "überUns")).resolve [shopWith (typeNamed "überUns")] (linkNamed "überUns") =
      .ok (some (typeNamed "überUns")) := by
  have hcamel : Name.camelCase "über uns" = "überUns" := by decide +kernel
  have hsettled : Name.Settled "überUns" := by decide +kernel
  obtain ⟨hagain, -, -, -, -, hpaths, hlinks⟩ := stored_name_settles "über uns"
  rw [hcamel] at hagain hpaths hlinks
  have hfixed := hagain.2 hsettled
  have hmade := madeWith_linkNamed "überUns"
  rw [hfixed] at hmade
  have hfinds := (hlinks (shopWith (typeNamed "überUns")) _ rfl _ _ hmade [shopWith (typeNamed "überUns")]
    (typeNamed "überUns")).1 .definedType (.text "shop") rfl (by decide) rfl rfl
  exact ⟨hcamel, hsettled, hfixed, ((hpaths "types").1.2 hsettled).trans rfl, rfl, hmade, hfinds.2 hsettled⟩

/-- **A word that begins with a capital above ASCII is not found again.** The type that is declared as `a é` is stored as
`aÉ`; its page is that of `aé`, and a link that is made with the stored name does not find it. -/
theorem accented_word_moves : Name.camelCase "a é" = "aÉ" ∧ Name.camelCase "aÉ" = "aé" ∧ ¬ Name.Settled "aÉ" ∧
    Docs.memberPath "types" "aÉ" = "types/aé.md" ∧
    (LinkTable.recordTree (shopWith (typeNamed "aÉ"))).perform .empty = (.ok (), shopTable (typeNamed "aÉ")) ∧
    (shopTable (typeNamed "aÉ")).get? ⟨.text "shop", .definedType, .text "aÉ"⟩ = some (typeNamed "aÉ") ∧
    Node.MadeWith .definedTypeLink "aÉ" (linkNamed "aé") ∧
    (shopTable (typeNamed "aÉ")).resolve [shopWith (typeNamed "aÉ")] (linkNamed "aé") = .ok none := by
  have hagain : Name.camelCase "aÉ" = "aé" := by decide +kernel
  have hpath : Docs.memberPath "types" "aÉ" = "types/aé.md" := by decide +kernel
  exact ⟨by decide +kernel, hagain, by decide +kernel, hpath, rfl, rfl, hagain ▸ madeWith_linkNamed "aÉ", rfl⟩

end InterfacePages
