/-
The folder that a run clears, and the folder that pages are written to.

A text is joined to a folder if its path stays inside it, and that can be told from the names between its slashes alone
(`LeadsInside`): it does not start with a slash, none of its names leads back, and one of them is a name at all. These
names then follow the ones of the folder, so that the place is below the folder wherever the folder is (`placed`).
Removing a folder touches nothing but what stands at its place or below (`deleteFolder_outside`), so a run that clears
its folder leaves the package around it alone (`OwnFolder`). Pages are put under the same rule (`WrittenInside`).

- `output_stays_inside`: both, with the fault for every other text.
-/
import Mathlib
import InterfacePages.Command.Settings
import InterfacePages.Proofs.EmittedFiles
import InterfacePages.Proofs.PagePaths

namespace InterfacePages

namespace Files

variable {ρ : Type} {s s' : Store}

/-! ## The rule -/

/-- what stands between the slashes of a text -/
abbrev pieces (t : Text) : List Text := Text.splitOn 47 t

/-- a piece that names something: it is neither empty nor a point -/
abbrev Names (piece : Text) : Prop := piece ≠ "" ∧ piece ≠ "."

/-- the names in a text, in order -/
def names (t : Text) : List Text := (pieces t).filter fun piece => decide (Names piece)

/-- a text leads inside the folder that it is joined to -/
structure LeadsInside (t : Text) : Prop where
  relative : t.head? ≠ some 47
  ahead : Text.ofString ".." ∉ pieces t
  somewhere : ∃ piece ∈ pieces t, Names piece

theorem partsOf_eq (t : Text) : Path.partsOf t = names t := by
  unfold Path.partsOf names
  apply List.filter_congr
  intro piece _
  rw [Bool.eq_iff_iff]
  simp [Names, Text.ofString]

theorem rootOf_eq_relative {t : Text} : Path.rootOf t = .relative ↔ t.head? ≠ some 47 := by
  cases t with
  | nil => simp [Path.rootOf]
  | cons c rest =>
    by_cases hc : c = 47
    · subst hc
      simp only [List.head?_cons, ne_eq, not_true_eq_false, iff_false]
      unfold Path.rootOf
      split <;> simp_all
    · simp [rootOf_relative hc, hc]

theorem names_ne_nil {t : Text} : names t ≠ [] ↔ ∃ piece ∈ pieces t, Names piece := by
  simp [names]

theorem back_mem_names {t : Text} : Text.ofString ".." ∈ names t ↔ Text.ofString ".." ∈ pieces t := by
  have hback : Names (Text.ofString "..") := by decide
  rw [names, List.mem_filter]
  exact ⟨fun h => h.1, fun h => ⟨h, decide_eq_true hback⟩⟩

/-- paths are accepted by the rule -/
theorem isInside_iff {t : Text} : (Path.ofText t).isInside = true ↔ LeadsInside t := by
  simp only [Path.isInside, Path.ofText, partsOf_eq, Bool.and_eq_true, beq_iff_eq, rootOf_eq_relative,
    Bool.not_eq_true', List.contains_eq_mem, decide_eq_false_iff_not, back_mem_names, List.isEmpty_eq_false_iff]
  constructor
  · rintro ⟨⟨hrelative, hahead⟩, hsome⟩
    exact ⟨hrelative, hahead, names_ne_nil.1 hsome⟩
  · intro h
    exact ⟨⟨h.relative, h.ahead⟩, names_ne_nil.2 h.somewhere⟩

instance (t : Text) : Decidable (LeadsInside t) := decidable_of_iff _ isInside_iff

theorem inside_of_leadsInside {t : Text} (h : LeadsInside t) (what whereTo : Text) :
    Path.inside what whereTo t = .ok (Path.ofText t) := if_pos (isInside_iff.2 h)

theorem inside_of_not {t : Text} (h : ¬ LeadsInside t) (what whereTo : Text) :
    Path.inside what whereTo t = .error (.unsafePath what whereTo t) := if_neg fun hinside => h (isInside_iff.1 hinside)

/-- under the rule the names lead to a place below the folder, wherever the folder is -/
theorem placed {t : Text} (h : LeadsInside t) (s : Store) (folder : Path) :
    s.placeOf (folder.join (names t)) = s.placeOf folder ++ names t ∧
      Store.isBelow (s.placeOf folder) (s.placeOf folder ++ names t) = true := by
  have hpath : Path.ofPage t = .ok (Path.ofText t) := inside_of_leadsInside h _ _
  rw [← partsOf_eq]
  exact ⟨placeOf_target hpath s folder, isBelow_page hpath _⟩

/-! ## Paths and their texts -/

namespace Path

/-- a path whose names could be read from a text -/
def Readable (p : Path) : Prop := ∀ part ∈ p.parts, Names part ∧ 47 ∉ part

theorem readable_ofText (t : Text) : (ofText t).Readable := by
  intro part hpart
  rw [ofText, partsOf_eq, names, List.mem_filter, decide_eq_true_eq] at hpart
  exact ⟨hpart.2, Text.not_mem_of_splitOn hpart.1⟩

theorem Readable.join {p q : Path} (hp : p.Readable) (hq : q.Readable) : (p.join q.parts).Readable := by
  intro part hpart
  rcases List.mem_append.1 hpart with h | h
  · exact hp part h
  · exact hq part h

theorem names_joinWith {parts : List Text} (h : ∀ part ∈ parts, Names part ∧ 47 ∉ part) :
    names (Text.joinWith "/" parts) = parts := by
  by_cases hne : parts = []
  · subst hne
    decide
  · have hsplit : pieces (Text.joinWith "/" parts) = parts := Text.splitOn_joinWith hne fun part hp => (h part hp).2
    rw [names, hsplit]
    exact List.filter_eq_self.2 fun part hp => decide_eq_true (h part hp).1

theorem names_slash (t : Text) : names (47 :: t) = names t := by
  have h := partsOf_append [] t
  rw [partsOf_eq, partsOf_eq, partsOf_eq] at h
  exact h

theorem head?_joinWith_ne {parts : List Text} (h : ∀ part ∈ parts, Names part ∧ 47 ∉ part) :
    (Text.joinWith "/" parts).head? ≠ some 47 := by
  cases parts with
  | nil => simp [Text.joinWith]
  | cons part rest =>
    obtain ⟨⟨hne, -⟩, hslash⟩ := h part List.mem_cons_self
    cases part with
    | nil => exact absurd rfl hne
    | cons c more =>
      rw [Text.head?_joinWith "/" (c := c) rfl rest]
      intro hc
      exact hslash (Option.some.inj hc ▸ List.mem_cons_self)

theorem rootOf_text (root : Root) {t : Text} (h : t.head? ≠ some 47) : rootOf (root.text ++ t) = root := by
  cases root with
  | relative => exact rootOf_eq_relative.2 h
  | single =>
    cases t with
    | nil => rfl
    | cons c rest =>
      change rootOf (47 :: c :: rest) = .single
      unfold rootOf
      split <;> simp_all
  | double =>
    cases t with
    | nil => rfl
    | cons c rest =>
      change rootOf (47 :: 47 :: c :: rest) = .double
      unfold rootOf
      split
      · next heq => simp_all
      · rfl
      · next hdouble heq => exact (hdouble _ (List.cons.inj heq).2.symm).elim
      · simp_all

/-- reading the text of a path gives the path -/
theorem ofText_text {p : Path} (h : p.Readable) : ofText p.text = p := by
  obtain ⟨root, parts⟩ := p
  have hnames : names (root.text ++ Text.joinWith "/" parts) = parts := by
    cases root with
    | relative => exact names_joinWith h
    | single => exact (names_slash _).trans (names_joinWith h)
    | double => exact (names_slash _).trans ((names_slash _).trans (names_joinWith h))
  have hroot := rootOf_text root (head?_joinWith_ne h)
  simp only [Path.text]
  split
  · next hempty =>
    -- only a relative path without names has an empty text, and it is written as a point
    rw [List.isEmpty_iff] at hempty
    rw [hempty] at hnames hroot
    subst hnames hroot
    decide
  · rw [ofText, partsOf_eq, hnames, hroot]

end Path

/-! ## Removing a folder -/

theorem isBelow_iff {folder place : Place} :
    Store.isBelow folder place = true ↔ folder <+: place ∧ folder.length < place.length := by
  rw [Store.isBelow, Bool.and_eq_true, List.isPrefixOf_iff_prefix, decide_eq_true_eq]

theorem removeFolder_outside {p : Path} {r : Except Fault Unit} (h : (removeFolder p).perform s = (r, s')) :
    ∀ place, place ≠ s.placeOf p → s'.entries.get? place = s.entries.get? place := by
  intro place hne
  simp only [removeFolder, Act.perform_ofOutcome] at h
  split at h
  · cases h
    rfl
  · split at h
    · cases h
      rfl
    · next there hreach =>
      obtain rfl := Store.reach_eq hreach
      split at h
      · cases h
        rfl
      · split at h <;> cases h
        · rw [Store.get?_remove, if_neg hne]
        · rfl

/-- removing a folder changes nothing but at its place and below -/
theorem deleteFolder_outside {p : Path} {r : Except Fault Unit} (h : (deleteFolder p).perform s = (r, s')) :
    ∀ place, ¬ s.placeOf p <+: place → s'.entries.get? place = s.entries.get? place := by
  intro place houtside
  by_cases hfound : s.look p = .ok (some .folder)
  · obtain ⟨hreach, hfolder⟩ := Store.look_eq_folder hfound
    rw [perform_deleteFolder hreach hfolder] at h
    have hne : place ≠ (s.clear (s.placeOf p)).placeOf p := by
      rintro rfl
      exact houtside List.prefix_rfl
    have hbelow : Store.isBelow (s.placeOf p) place = false := by
      simp [Store.isBelow, houtside]
    calc s'.entries.get? place = (s.clear (s.placeOf p)).entries.get? place := removeFolder_outside h place hne
      _ = s.entries.get? place := by rw [Store.get?_clear, hbelow, if_neg Bool.false_ne_true]
  · -- nothing is removed unless a folder is found
    have hsame : s' = s := by
      rw [deleteFolder, Act.perform_bind_ok (Act.perform_get s)] at h
      cases hlook : s.look p with
      | error e =>
        rw [hlook, Act.perform_bind_error (Act.perform_ofExcept _ s)] at h
        cases h
        rfl
      | ok found =>
        rw [hlook, Act.perform_bind_ok (Act.perform_ofExcept _ s)] at h
        cases found with
        | none =>
          cases h
          rfl
        | some entry =>
          cases entry with
          | file octets =>
            cases h
            rfl
          | folder => exact absurd hlook hfound
    rw [hsame]

/-- what a run gets as the folder that it owns: its path goes on from the package's by the names in a text, and removing
it leaves everything that is not strictly below the package -/
structure OwnFolder (package : Path) (folder : Text) (p : Path) : Prop where
  root : p.root = package.root
  parts : p.parts = package.parts ++ names folder
  proper : names folder ≠ []
  reread : package.Readable → Path.ofText p.text = p
  around : ∀ s r s', (deleteFolder p).perform s = (r, s') → ∀ place, Store.isBelow (s.placeOf package) place = false →
    s'.entries.get? place = s.entries.get? place

theorem ownFolder {folder : Text} (h : LeadsInside folder) (package : Path) :
    OwnFolder package folder (package.join (names folder)) where
  root := rfl
  parts := rfl
  proper := names_ne_nil.2 h.somewhere
  reread := by
    intro hpackage
    have hfolder := Path.readable_ofText folder
    have hjoin := hpackage.join hfolder
    rw [Path.ofText, partsOf_eq] at hjoin
    exact Path.ofText_text hjoin
  around := by
    intro s r s' hdelete place hplace
    obtain ⟨hplaced, hbelow⟩ := placed h s package
    apply deleteFolder_outside hdelete
    rw [hplaced]
    intro hprefix
    obtain ⟨hstart, hlonger⟩ := isBelow_iff.1 hbelow
    have hinside := isBelow_iff.2 ⟨hstart.trans hprefix, Nat.lt_of_lt_of_le hlonger hprefix.length_le⟩
    rw [hplace] at hinside
    cases hinside

/-! ## Writing a page -/

/-- the fault for a text that does not stay inside -/
def Refused (f : Fault) : Prop := ∃ what whereTo t, f = .unsafePath what whereTo t

theorem not_refused_of_system {f : Fault} (h : f.family = .system) : ¬ Refused f := by
  rintro ⟨what, whereTo, t, rfl⟩
  cases h

theorem checkText_not_refused {t : Text} {f : Fault} (h : Store.checkText t = .error f) : ¬ Refused f := by
  unfold Store.checkText at h
  rintro ⟨what, whereTo, u, rfl⟩
  split at h
  · cases h
  · split at h <;> cases h

/-- the system is asked about a path, whatever it leads to -/
theorem reach_not_refused {p : Path} {f : Fault} (h : s.reach p = .error f) : ¬ Refused f := by
  by_cases hp : p.Accepted
  · exact not_refused_of_system (reach_system hp s h)
  · cases hcheck : Store.checkText p.text with
    | ok count => exact absurd (checkText_ok.1 ⟨count, hcheck⟩) hp
    | error g =>
      simp only [Store.reach, hcheck, bind, Except.bind] at h
      cases h
      exact checkText_not_refused hcheck

theorem makeFolder_not_refused (p : Path) : FailsOnly (fun f => ¬ Refused f) (makeFolder p) := by
  intro s f s' h
  simp only [makeFolder, Act.perform_ofOutcome] at h
  split at h
  · next hreach =>
    cases h
    exact reach_not_refused hreach
  · split at h <;> cases h
    exact not_refused_of_system rfl

theorem writeFile_not_refused (p : Path) (octets : List UInt8) :
    FailsOnly (fun f => ¬ Refused f) (writeFile p octets) := by
  intro s f s' h
  simp only [writeFile, Act.perform_ofOutcome] at h
  split at h
  · next hreach =>
    cases h
    exact reach_not_refused hreach
  · split at h <;> cases h
    exact not_refused_of_system rfl

/-- a page under the rule is never refused -/
theorem writePage_not_refused {name : Text} {p : Path} (hp : Path.ofPage name = .ok p) (folder : Path)
    (content : Text) : FailsOnly (fun f => ¬ Refused f) (writePage folder name content) := by
  rw [writePage_eq hp]
  refine FailsOnly.bind ?_ fun _ => FailsOnly.bind ?_ fun octets => ?_
  · exact makeFoldersUpTo_failsOnly (Q := fun _ => True) (fun _ => not_refused_of_system) (fun _ _ => trivial)
      (fun p _ => makeFolder_not_refused p) _ trivial
  · intro s f s' h
    obtain ⟨hencoded, -⟩ := Prod.mk.inj h
    unfold Formatter.encoded at hencoded
    rintro ⟨what, whereTo, t, rfl⟩
    split at hencoded <;> cases hencoded
  · exact (writeFile_not_refused _ octets).bind fun _ => .pure _

/-- what writing a page under the rule leaves of the files, with the answer it gives -/
structure WrittenInside (folder : Path) (name content : Text) (s : Store) (answer : Except Fault Written)
    (s' : Store) : Prop where
  below : Store.isBelow (s.placeOf folder) (s.placeOf folder ++ names name) = true
  others : ∀ place, place ≠ s.placeOf folder ++ names name → s'.fileAt place = s.fileAt place
  written : ∀ w, answer = .ok w → ∃ octets, Text.encode content = .ok octets ∧
    s'.fileAt (s.placeOf folder ++ names name) = some octets
  failed : ∀ f, answer = .error f → ¬ Refused f ∧ s'.fileAt = s.fileAt
  /-- it is written when its folder is there, the system finds its place and the content has octets -/
  succeeds : ∀ place octets, s.isFolder (target folder name).parent = .ok true →
    s.reach (target folder name) = .ok place → s.entries.get? place ≠ some .folder →
    Text.encode content = .ok octets → ∃ w, answer = .ok w

theorem isFolder_eq_true {p : Path} (h : s.isFolder p = .ok true) : s.look p = .ok (some .folder) := by
  unfold Store.isFolder at h
  obtain ⟨found, hfound, h⟩ := except_bind_ok.1 h
  rw [hfound, ← beq_iff_eq.1 (Except.ok.inj h)]

/-- a folder that is there need not be made -/
theorem makeFolders_of_folder {p : Path} (h : s.isFolder p = .ok true) :
    (makeFolders p).perform s = (.ok (), s) := by
  obtain ⟨hreach, hfolder⟩ := Store.look_eq_folder (isFolder_eq_true h)
  have hmake : (makeFolder p).perform s = (.error (.os .exists p.text .plain), s) := by
    simp only [makeFolder, Act.perform_ofOutcome, hreach, hfolder, Option.isSome_some, if_true]
  rw [makeFolders, makeFoldersUpTo, Act.perform_tryCatch, hmake]
  simp only [unlessFolder]
  rw [Act.perform_bind_ok (Act.perform_get s), h, Act.perform_bind_ok (Act.perform_ofExcept _ s)]
  rfl

theorem writePage_succeeds {name : Text} {p : Path} (hp : Path.ofPage name = .ok p) {folder : Path} {content : Text}
    {place : Place} {octets : List UInt8} (hfolder : s.isFolder (target folder name).parent = .ok true)
    (hreach : s.reach (target folder name) = .ok place) (hplace : s.entries.get? place ≠ some .folder)
    (hoctets : Text.encode content = .ok octets) : ∃ w s', (writePage folder name content).perform s = (.ok w, s') := by
  have hencoded : Formatter.encoded content = .ok octets := by rw [Formatter.encoded, hoctets]
  have hwrite : (writeFile (target folder name) octets).perform s = (.ok (), s.put place (.file octets)) := by
    simp only [writeFile, Act.perform_ofOutcome, hreach]
  refine ⟨⟨name, content.count 10, octets.length⟩, s.put place (.file octets), ?_⟩
  rw [writePage_eq hp, Act.perform_bind_ok (makeFolders_of_folder hfolder), hencoded,
    Act.perform_bind_ok (Act.perform_ofExcept _ s), Act.perform_bind_ok hwrite]
  rfl

theorem writePage_error_files {name : Text} {p : Path} (hp : Path.ofPage name = .ok p) {folder : Path} {content : Text}
    {f : Fault} (h : (writePage folder name content).perform s = (.error f, s')) : s'.fileAt = s.fileAt := by
  rw [writePage_eq hp] at h
  rcases Act.bind_eq_error.1 h with h | ⟨_, t, hfolders, h⟩
  · exact (makeFolders_sameFiles _ _ _ _ h).2
  have ht := (makeFolders_sameFiles _ _ _ _ hfolders).2
  rcases Act.bind_eq_error.1 h with h | ⟨octets, t', hoctets, h⟩
  · rw [← (Prod.mk.inj h).2]
    exact ht
  obtain ⟨-, rfl⟩ := Prod.mk.inj hoctets
  rcases Act.bind_eq_error.1 h with h | ⟨_, _, _, h⟩
  · rw [← ht]
    simp only [writeFile, Act.perform_ofOutcome] at h
    split at h
    · cases h
      rfl
    · split at h <;> cases h
      rfl
  · cases h

theorem writtenInside {name : Text} (h : LeadsInside name) {folder : Path} {content : Text}
    {answer : Except Fault Written} (hwrite : (writePage folder name content).perform s = (answer, s')) :
    WrittenInside folder name content s answer s' := by
  have hpath : Path.ofPage name = .ok (Path.ofText name) := inside_of_leadsInside h _ _
  have hsucceeds : ∀ place octets, s.isFolder (target folder name).parent = .ok true →
      s.reach (target folder name) = .ok place → s.entries.get? place ≠ some .folder →
      Text.encode content = .ok octets → ∃ w, answer = .ok w := by
    intro place octets hfolder hreach hplace hoctets
    obtain ⟨w, t, hw⟩ := writePage_succeeds hpath hfolder hreach hplace hoctets
    exact ⟨w, (Prod.mk.inj (hwrite.symm.trans hw)).1⟩
  cases answer with
  | error f =>
    have hsame := writePage_error_files hpath hwrite
    refine { below := (placed h s folder).2, others := ?_, written := ?_, failed := ?_, succeeds := hsucceeds }
    · intro place _
      rw [hsame]
    · intro w hw
      cases hw
    · rintro _ ⟨rfl⟩
      exact ⟨writePage_not_refused hpath folder content s f s' hwrite, hsame⟩
  | ok w =>
    have hpage : Path.ofPage (name, content).1 = .ok (Path.ofText name) := hpath
    obtain ⟨⟨octets, hoctets, -⟩, -, hfiles⟩ := writePage_ok hpage hwrite
    have hupdate : s'.fileAt = Function.update s.fileAt (s.placeOf folder ++ names name) (some octets) := by
      rw [hfiles, filesAfter, List.foldl_cons, List.foldl_nil, hoctets, partsOf_eq]
      rfl
    refine { below := (placed h s folder).2, others := ?_, written := ?_, failed := ?_, succeeds := hsucceeds }
    · intro place hne
      rw [hupdate, Function.update_of_ne hne]
    · intro _ _
      exact ⟨octets, hoctets, by rw [hupdate, Function.update_self]⟩
    · intro f hf
      cases hf

/-! ## Both folders -/

/-- **What is cleared and what is written stays inside.** A text that does not start with a slash, has no part that
leads back and has one that is a name gives a run a folder of its own strictly inside the package, and a page a place
below the folder of all pages. Any other text is refused for either, and nothing changes. -/
theorem output_stays_inside (folder : Path) (t : Text) :
    (LeadsInside t → ∃ p, Path.generatedFolder folder t = .ok p ∧ OwnFolder folder t p ∧
      Command.checkFolder folder t = .ok t ∧
      ∀ content s answer s', (writePage folder t content).perform s = (answer, s') →
        WrittenInside folder t content s answer s') ∧
    (¬ LeadsInside t →
      Path.generatedFolder folder t = .error (.unsafePath "Generated folder" "the package folder" t) ∧
      (∃ message suggestion, Command.checkFolder folder t =
        .error (Command.configFault .invalidGeneratedFolder message suggestion)) ∧
      ∀ content s, (writePage folder t content).perform s =
        (.error (.unsafePath "Render map path" "the output dir" t), s)) := by
  constructor
  · intro h
    have hfolder : Path.generatedFolder folder t = .ok (folder.join (names t)) := by
      rw [Path.generatedFolder, inside_of_leadsInside h, ← partsOf_eq]
      rfl
    refine ⟨_, hfolder, ownFolder h folder, ?_, fun content s answer s' => writtenInside h⟩
    rw [Command.checkFolder, hfolder]
  · intro h
    have hfolder : Path.generatedFolder folder t =
        .error (.unsafePath "Generated folder" "the package folder" t) := by
      rw [Path.generatedFolder, inside_of_not h]
      rfl
    refine ⟨hfolder, ⟨_, _, by rw [Command.checkFolder, hfolder]⟩, fun content s => ?_⟩
    rw [writePage, Path.ofPage, inside_of_not h]
    rfl

theorem docs_stay_inside : LeadsInside "./gen//docs/" ∧ ¬ LeadsInside "gen/../.." ∧
    (∃ p, Path.generatedFolder (Path.ofText "//pkg/.") "./gen//docs/" = .ok p ∧
      p.text = Text.ofString "//pkg/gen/docs" ∧ OwnFolder (Path.ofText "//pkg/.") "./gen//docs/" p) ∧
    Path.generatedFolder (Path.ofText "//pkg/.") "gen/../.." =
      .error (.unsafePath "Generated folder" "the package folder" "gen/../..") := by
  have hinside : LeadsInside "./gen//docs/" := by decide
  have houtside : ¬ LeadsInside "gen/../.." := by decide
  obtain ⟨p, hp, hown, -⟩ := (output_stays_inside (Path.ofText "//pkg/.") "./gen//docs/").1 hinside
  have hrefused := ((output_stays_inside (Path.ofText "//pkg/.") "gen/../..").2 houtside).1
  refine ⟨hinside, houtside, ⟨p, hp, ?_, hown⟩, hrefused⟩
  cases hp
  decide

end Files

end InterfacePages
