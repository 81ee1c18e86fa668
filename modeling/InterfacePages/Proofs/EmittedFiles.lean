/-
What an emission leaves of the files when it succeeds.

A path that the system accepts leads to its lexical place (`reach_eq`), whatever stands on the way. Making folders
changes no file, so writing the pages is a sequence of updates of single places (`writeEach_ok`), and clearing empties
what lies below the folder, provided that the folder is found (`clearing_ok`).

- `emitted_files`: the pages stand below the folder, of several on one place the greatest path, and no file elsewhere
  changes. Other files below the folder go if and only if it is found when it is to be cleared; so it is in any proper
  system whose files lie below it, unless its path leads back through a folder that is still missing.
- `stale_file_stays`: such a path is made valid only after the clearing, and the file of an earlier run stays.
-/
import Mathlib
import InterfacePages.Proofs.Emission

namespace InterfacePages

namespace Files

variable {ρ τ : Type} {programs : Formatter.Programs} {folder : Path} {s s' : Store}

/-! ## Places -/

/-- one name further; two points lead back, at the root to itself -/
def stepTo (place : Place) (name : Text) : Place := if name = ".." then place.dropLast else place ++ [name]

theorem foldl_stepTo {names : List Text} (h : Text.ofString ".." ∉ names) (place : Place) :
    names.foldl stepTo place = place ++ names := by
  induction names generalizing place with
  | nil => exact (List.append_nil place).symm
  | cons name rest ih =>
    rw [List.mem_cons, not_or] at h
    rw [List.foldl_cons, ih h.2, stepTo, if_neg (Ne.symm h.1), List.append_assoc, List.singleton_append]

namespace Store

/-- the lexical place of a path -/
def placeOf (s : Store) (p : Path) : Place := p.parts.foldl stepTo (s.start p)

/-- the octets of the file at a place -/
def fileAt (s : Store) (place : Place) : Option (List UInt8) :=
  match s.entries.get? place with
  | some (.file octets) => some octets
  | _ => none

theorem placeOf_congr {t : Store} (h : t.work = s.work) (p : Path) : t.placeOf p = s.placeOf p := by
  unfold placeOf start
  rw [h]

theorem member_eq {folder place : Place} {name : Text} (h : member folder name = .ok place) :
    place = stepTo folder name := by
  unfold member at h
  unfold stepTo
  split at h
  · next hback =>
    cases h
    rw [if_pos hback]
  · next hback =>
    split at h <;> cases h
    rw [if_neg hback]

theorem followFolders_eq {folder place : Place} {names : List Text} (h : s.followFolders folder names = .ok place) :
    place = names.foldl stepTo folder := by
  induction names generalizing folder with
  | nil => exact (Except.ok.inj h).symm
  | cons name rest ih =>
    obtain ⟨next, hnext, h⟩ := except_bind_ok.1 h
    split at h
    · cases h
    · cases h
    · rw [List.foldl_cons, ← member_eq hnext]
      exact ih h

theorem follow_eq {folder place : Place} {names : List Text} (h : s.follow folder names = .ok place) :
    place = names.foldl stepTo folder := by
  unfold follow at h
  split at h
  · split at h
    · next hlast =>
      cases h
      rw [List.getLast?_eq_none_iff.1 hlast]
      rfl
    · next name hlast =>
      obtain ⟨around, haround, h⟩ := except_bind_ok.1 h
      have hnames := List.dropLast_append_getLast? name hlast
      rw [member_eq h, followFolders_eq haround]
      exact (List.foldl_concat stepTo folder name names.dropLast).symm.trans (congrArg _ hnames)
  · cases h

theorem reach_eq_ok {p : Path} {place : Place} : s.reach p = .ok place ↔
    ∃ count, checkText p.text = .ok count ∧ count < pathLimit ∧ s.follow (s.start p) p.parts = .ok place := by
  unfold reach
  cases checkText p.text with
  | error e => simp [bind, Except.bind]
  | ok count =>
    by_cases hcount : pathLimit ≤ count
    · simp [bind, Except.bind, hcount, throw, throwThe, MonadExceptOf.throw, Nat.not_lt.2 hcount]
    · cases s.follow (s.start p) p.parts with
      | error cause => simp [bind, Except.bind, hcount, throw, throwThe, MonadExceptOf.throw]
      | ok there => simp [bind, Except.bind, hcount, Nat.lt_of_not_le, pure, Except.pure]

/-- a path that is followed to its end leads to its lexical place -/
theorem reach_eq {p : Path} {place : Place} (h : s.reach p = .ok place) : place = s.placeOf p := by
  obtain ⟨_, _, _, hfollow⟩ := reach_eq_ok.1 h
  exact follow_eq hfollow

theorem look_eq_folder {p : Path} (h : s.look p = .ok (some .folder)) :
    s.reach p = .ok (s.placeOf p) ∧ s.entries.get? (s.placeOf p) = some .folder := by
  unfold look at h
  split at h
  · next place hreach =>
    obtain rfl := reach_eq hreach
    exact ⟨hreach, Except.ok.inj h⟩
  · cases h
  · cases h

/-! ## Files -/

theorem fileAt_of_file {place : Place} {octets : List UInt8} (h : s.entries.get? place = some (.file octets)) :
    s.fileAt place = some octets := by
  rw [fileAt, h]

theorem fileAt_eq_some {place : Place} {octets : List UInt8} :
    s.fileAt place = some octets ↔ s.entries.get? place = some (.file octets) := by
  constructor
  · intro h
    unfold fileAt at h
    split at h
    · next found hfound =>
      cases h
      exact hfound
    · cases h
  · exact fileAt_of_file

theorem fileAt_of_folder {place : Place} (h : s.entries.get? place = some .folder) : s.fileAt place = none := by
  rw [fileAt, h]

theorem fileAt_of_none {place : Place} (h : s.entries.get? place = none) : s.fileAt place = none := by
  rw [fileAt, h]

theorem fileAt_congr {t : Store} {place : Place} (h : t.entries.get? place = s.entries.get? place) :
    t.fileAt place = s.fileAt place := by
  rw [fileAt, h, fileAt]

theorem get?_put (s : Store) (place other : Place) (entry : Entry) :
    (s.put place entry).entries.get? other = if place = other then some entry else s.entries.get? other :=
  OrderedMap.get?_upsert s.entries place other fun _ => entry

theorem get?_clear (s : Store) (folder place : Place) :
    (s.clear folder).entries.get? place = if isBelow folder place = true then none else s.entries.get? place := by
  rw [clear, OrderedMap.get?_filterKeys]
  cases isBelow folder place <;> rfl

theorem get?_remove (s : Store) (place other : Place) :
    (s.remove place).entries.get? other = if other = place then none else s.entries.get? other := by
  rw [remove, OrderedMap.get?_filterKeys]
  by_cases h : other = place <;> simp [h]

theorem fileAt_put_folder {place : Place} (h : s.entries.get? place = none) : (s.put place .folder).fileAt = s.fileAt := by
  funext other
  by_cases hother : place = other
  · subst hother
    rw [fileAt_of_none h, fileAt_of_folder (by rw [get?_put, if_pos rfl])]
  · exact fileAt_congr (by rw [get?_put, if_neg hother])

theorem fileAt_put_file (s : Store) (place : Place) (octets : List UInt8) :
    (s.put place (.file octets)).fileAt = Function.update s.fileAt place (some octets) := by
  funext other
  by_cases hother : place = other
  · subst hother
    rw [Function.update_self, fileAt_of_file (by rw [get?_put, if_pos rfl])]
  · rw [Function.update_of_ne (Ne.symm hother)]
    exact fileAt_congr (by rw [get?_put, if_neg hother])

end Store

/-! ## Writing -/

/-- every file and the working folder are the same -/
def SameFiles (s s' : Store) : Prop := s'.work = s.work ∧ s'.fileAt = s.fileAt

theorem SameFiles.trans (a b c : Store) (hab : SameFiles a b) (hbc : SameFiles b c) : SameFiles a c :=
  ⟨hbc.1.trans hab.1, hbc.2.trans hab.2⟩

theorem makeFolder_sameFiles (p : Path) : Act.Within SameFiles (makeFolder p) := by
  intro s r s' h
  simp only [makeFolder, Act.perform_ofOutcome] at h
  split at h
  · cases h
    exact ⟨rfl, rfl⟩
  · next place hreach =>
    split at h <;> cases h
    · exact ⟨rfl, rfl⟩
    · next hmissing => exact ⟨rfl, Store.fileAt_put_folder (by simpa using hmissing)⟩

theorem makeFolders_sameFiles (p : Path) : Act.Within SameFiles (makeFolders p) :=
  makeFoldersUpTo_within (fun _ => ⟨rfl, rfl⟩) SameFiles.trans makeFolder_sameFiles _ p

theorem writeFile_ok {p : Path} {octets : List UInt8} {u : Unit} (h : (writeFile p octets).perform s = (.ok u, s')) :
    s'.work = s.work ∧ s'.fileAt = Function.update s.fileAt (s.placeOf p) (some octets) := by
  simp only [writeFile, Act.perform_ofOutcome] at h
  split at h
  · cases h
  · next place hreach =>
    obtain rfl := Store.reach_eq hreach
    split at h <;> cases h
    exact ⟨rfl, Store.fileAt_put_file s _ octets⟩

/-- a path below the folder of all pages has no way back in it -/
theorem no_way_back {name : Text} {p : Path} (hp : Path.ofPage name = .ok p) :
    Text.ofString ".." ∉ Path.partsOf name ∧ Path.partsOf name ≠ [] := by
  have hinside : (Path.ofText name).isInside = true := by
    unfold Path.ofPage Path.inside at hp
    simp only at hp
    split at hp
    · assumption
    · cases hp
  simp only [Path.isInside, Bool.and_eq_true, Bool.not_eq_true', List.contains_eq_mem, decide_eq_false_iff_not,
    List.isEmpty_eq_false_iff] at hinside
  exact ⟨hinside.1.2, hinside.2⟩

theorem placeOf_target {name : Text} {p : Path} (hp : Path.ofPage name = .ok p) (s : Store) (folder : Path) :
    s.placeOf (target folder name) = s.placeOf folder ++ Path.partsOf name := by
  unfold Store.placeOf target Path.join
  rw [List.foldl_append, foldl_stepTo (no_way_back hp).1]
  rfl

/-- what is reported of a written page -/
def Reported (page : Text × Text) (w : Written) : Prop :=
  ∃ octets, Text.encode page.2 = .ok octets ∧ w = ⟨page.1, page.2.count 10, octets.length⟩

/-- the files after pages have been written below a place, one after another -/
def filesAfter (there : Place) (pages : List (Text × Text)) (files : Place → Option (List UInt8)) :
    Place → Option (List UInt8) :=
  pages.foldl (fun files page => Function.update files (there ++ Path.partsOf page.1) (Text.encode page.2).toOption) files

theorem encoded_eq_ok {content : Text} {octets : List UInt8} (h : Formatter.encoded content = .ok octets) :
    Text.encode content = .ok octets := by
  unfold Formatter.encoded at h
  split at h
  · next os hos =>
    cases h
    exact hos
  · cases h

theorem writePage_ok {page : Text × Text} {p : Path} (hp : Path.ofPage page.1 = .ok p) {w : Written}
    (h : (writePage folder page.1 page.2).perform s = (.ok w, s')) :
    Reported page w ∧ s'.work = s.work ∧ s'.fileAt = filesAfter (s.placeOf folder) [page] s.fileAt := by
  rw [writePage_eq hp] at h
  obtain ⟨_, s₁, hfolders, h⟩ := Act.bind_eq_ok.1 h
  obtain ⟨octets, s₂, hoctets, h⟩ := Act.bind_eq_ok.1 h
  obtain ⟨_, s₃, hwrite, h⟩ := Act.bind_eq_ok.1 h
  cases h
  obtain ⟨hencoded, rfl⟩ := Prod.mk.inj hoctets
  obtain ⟨hwork, hfiles⟩ := makeFolders_sameFiles _ _ _ _ hfolders
  obtain ⟨hwork', hfiles'⟩ := writeFile_ok hwrite
  have hencode := encoded_eq_ok hencoded
  refine ⟨⟨octets, hencode, rfl⟩, hwork'.trans hwork, ?_⟩
  rw [hfiles', hfiles, Store.placeOf_congr hwork, placeOf_target hp, filesAfter, List.foldl_cons, List.foldl_nil, hencode]
  rfl

/-- writing pages one after another updates the files one after another -/
theorem writeEach_ok {pages : List (Text × Text)} (hp : ∀ page ∈ pages, ∃ p, Path.ofPage page.1 = .ok p)
    {ws : List Written} (h : (writeEach folder pages).perform s = (.ok ws, s')) :
    List.Forall₂ Reported pages ws ∧ s'.fileAt = filesAfter (s.placeOf folder) pages s.fileAt := by
  induction pages generalizing s ws with
  | nil =>
    cases h
    exact ⟨.nil, rfl⟩
  | cons page rest ih =>
    obtain ⟨p, hpage⟩ := hp page List.mem_cons_self
    obtain ⟨w, t, hw, h⟩ := Act.bind_eq_ok.1 h
    obtain ⟨ws', t', hws, h⟩ := Act.bind_eq_ok.1 h
    cases h
    obtain ⟨hreported, hwork, hfiles⟩ := writePage_ok hpage hw
    obtain ⟨hreports, hrest⟩ := ih (fun q hq => hp q (List.mem_cons_of_mem _ hq)) hws
    refine ⟨.cons hreported hreports, ?_⟩
    rw [hrest, hfiles, Store.placeOf_congr hwork]
    rfl

/-- a place to which no page leads keeps its file -/
theorem filesAfter_other {there place : Place} {pages : List (Text × Text)} {files : Place → Option (List UInt8)}
    (h : ∀ page ∈ pages, there ++ Path.partsOf page.1 ≠ place) : filesAfter there pages files place = files place := by
  induction pages generalizing files with
  | nil => rfl
  | cons page rest ih =>
    rw [filesAfter, List.foldl_cons]
    refine (ih fun q hq => h q (List.mem_cons_of_mem _ hq)).trans ?_
    exact Function.update_of_ne (Ne.symm (h page List.mem_cons_self)) _ _

/-- a page stays whose place no later one has -/
theorem filesAfter_last {there : Place} {before after : List (Text × Text)} {page : Text × Text}
    (h : ∀ q ∈ after, Path.partsOf q.1 ≠ Path.partsOf page.1) (files : Place → Option (List UInt8)) :
    filesAfter there (before ++ page :: after) files (there ++ Path.partsOf page.1) =
      (Text.encode page.2).toOption := by
  rw [filesAfter, List.foldl_append, List.foldl_cons]
  refine (filesAfter_other fun q hq hplace => h q hq (List.append_cancel_left hplace)).trans ?_
  exact Function.update_self _ _ _

/-! ## Clearing -/

/-- the folder is found when it is to be cleared -/
def Cleared (options : EmitOptions) (folder : Path) (s : Store) : Prop :=
  options.clear = true ∧ s.look folder = .ok (some .folder)

/-- what there is to clear is a folder, or nothing -/
theorem look_of_clearing {options : EmitOptions} (hc : options.clear = true)
    (h : (clearing options folder).perform s = (.ok (), s')) :
    s.look folder = .ok (some .folder) ∨ s.look folder = .ok none ∧ s' = s := by
  rw [clearing, if_pos hc, deleteFolder, Act.perform_bind_ok (Act.perform_get s)] at h
  obtain ⟨found, hfound, h⟩ := Act.ofExcept_bind_eq_ok.1 h
  cases found with
  | none =>
    cases h
    exact .inr ⟨hfound, rfl⟩
  | some entry =>
    cases entry with
    | file octets => cases h
    | folder => exact .inl hfound

theorem removeFolder_ok {p : Path} {u : Unit} (h : (removeFolder p).perform s = (.ok u, s')) :
    s' = s.remove (s.placeOf p) := by
  simp only [removeFolder, Act.perform_ofOutcome] at h
  split at h
  · cases h
  · split at h
    · cases h
    · next place hreach =>
      obtain rfl := Store.reach_eq hreach
      split at h
      · cases h
      · split at h <;> cases h
        rfl

/-- clearing keeps every file but those below a folder that is found -/
theorem clearing_ok {options : EmitOptions} (h : (clearing options folder).perform s = (.ok (), s')) :
    s'.work = s.work ∧
    (Cleared options folder s → ∀ place, Store.isBelow (s.placeOf folder) place = true → s'.fileAt place = none) ∧
    ∀ place, ¬ (Cleared options folder s ∧ Store.isBelow (s.placeOf folder) place = true) →
      s'.fileAt place = s.fileAt place := by
  by_cases hfound : Cleared options folder s
  · obtain ⟨hc, hlook⟩ := id hfound
    obtain ⟨hreach, hfolder⟩ := Store.look_eq_folder hlook
    have hbelow : ∀ place, Store.isBelow (s.placeOf folder) place = true → s'.entries.get? place = none :=
      fun _ hb => clearing_below hc hreach hfolder h hb
    rw [clearing, if_pos hc, perform_deleteFolder hreach hfolder] at h
    obtain rfl := removeFolder_ok h
    refine ⟨rfl, fun _ place hb => Store.fileAt_of_none (hbelow place hb), fun place hplace => ?_⟩
    have hnot : Store.isBelow (s.placeOf folder) place = false := by simpa [hfound] using hplace
    have hsame : (s.clear (s.placeOf folder)).placeOf folder = s.placeOf folder := rfl
    by_cases hthere : place = s.placeOf folder
    · subst hthere
      rw [Store.fileAt_of_folder hfolder]
      exact Store.fileAt_of_none (by rw [hsame, Store.get?_remove, if_pos rfl])
    · refine Store.fileAt_congr ?_
      rw [hsame, Store.get?_remove, if_neg hthere, Store.get?_clear, if_neg (by rw [hnot]; exact Bool.false_ne_true)]
  · have hsame : s' = s := by
      by_cases hc : options.clear = true
      · exact ((look_of_clearing hc h).resolve_left fun hlook => hfound ⟨hc, hlook⟩).2
      · rw [clearing, if_neg hc] at h
        exact (Prod.mk.inj h).2.symm
    subst hsame
    exact ⟨rfl, fun hcleared => absurd hcleared hfound, fun _ _ => rfl⟩

/-! ## Pages in order -/

theorem inOrder_names (pages : PageMap) : (inOrder pages).map Prod.fst = Text.sorted pages.keys := by
  have hall : ∀ names : List Text, (∀ name ∈ names, name ∈ pages.keys) →
      (names.filterMap fun name => (pages.get? name).map fun f => (name, f.content)).map Prod.fst = names := by
    intro names hnames
    induction names with
    | nil => rfl
    | cons name rest ih =>
      obtain ⟨f, hf⟩ := OrderedMap.mem_keys.1 (hnames name List.mem_cons_self)
      rw [List.filterMap_cons_some (by rw [hf]; rfl), List.map_cons,
        ih fun other h => hnames other (List.mem_cons_of_mem _ h)]
  exact hall _ fun name hname => Text.mem_sorted.1 hname

theorem get?_of_inOrder {pages : PageMap} {page : Text × Text} (h : page ∈ inOrder pages) :
    ∃ f, pages.get? page.1 = some f ∧ f.content = page.2 := by
  obtain ⟨name, _, hpage⟩ := List.mem_filterMap.1 h
  obtain ⟨f, hf, rfl⟩ := Option.map_eq_some_iff.1 hpage
  exact ⟨f, hf, rfl⟩

theorem inOrder_increasing (pages : PageMap) : (inOrder pages).Pairwise fun a b => Text.lt a.1 b.1 = true := by
  have h : (Text.sorted pages.keys).Pairwise fun a b => Text.lt a b = true := Text.sorted_increasing pages.nodup
  rwa [← inOrder_names, List.pairwise_map] at h

/-- the last of some items that satisfies a condition -/
theorem exists_last {α : Type} {P : α → Prop} {items : List α} (h : ∃ a ∈ items, P a) :
    ∃ before a after, items = before ++ a :: after ∧ P a ∧ ∀ b ∈ after, ¬ P b := by
  induction items with
  | nil => exact absurd h (by simp)
  | cons a rest ih =>
    by_cases hrest : ∃ b ∈ rest, P b
    · obtain ⟨before, b, after, rfl, hb, hafter⟩ := ih hrest
      exact ⟨a :: before, b, after, rfl, hb, hafter⟩
    · have hnone : ∀ b ∈ rest, ¬ P b := fun b hb hPb => hrest ⟨b, hb, hPb⟩
      obtain ⟨b, hb, hPb⟩ := h
      rcases List.mem_cons.1 hb with rfl | hb
      · exact ⟨[], b, rest, rfl, hPb, hnone⟩
      · exact absurd hPb (hnone b hb)

/-- of the paths that lead to the place of one, the greatest is the last in order -/
theorem exists_greatest {pages : PageMap} {name : Text} (h : name ∈ pages.keys) :
    ∃ before page after, inOrder pages = before ++ page :: after ∧ Path.partsOf page.1 = Path.partsOf name ∧
      (∀ q ∈ after, Path.partsOf q.1 ≠ Path.partsOf page.1) ∧
      ∀ other ∈ pages.keys, Path.partsOf other = Path.partsOf name → Text.le other page.1 = true := by
  have hmem : ∀ other ∈ pages.keys, ∃ page ∈ inOrder pages, page.1 = other := fun other hother =>
    List.mem_map.1 (by rw [inOrder_names]; exact Text.mem_sorted.2 hother)
  obtain ⟨first, hfirst, hname⟩ := hmem name h
  obtain ⟨before, page, after, hsplit, hpage, hafter⟩ :=
    exists_last (P := fun page : Text × Text => Path.partsOf page.1 = Path.partsOf name) ⟨first, hfirst, by rw [hname]⟩
  refine ⟨before, page, after, hsplit, hpage, fun q hq hparts => hafter q hq (hparts.trans hpage), ?_⟩
  intro other hother hparts
  obtain ⟨q, hq, rfl⟩ := hmem other hother
  rw [hsplit, List.mem_append, List.mem_cons] at hq
  rcases hq with hq | rfl | hq
  · have hpairs := inOrder_increasing pages
    rw [hsplit] at hpairs
    have hlt := (List.pairwise_append.1 hpairs).2.2 q hq page List.mem_cons_self
    exact (Bool.and_eq_true_iff.1 hlt).1
  · exact Text.le_refl _
  · exact absurd hparts (hafter q hq)

/-! ## Proper systems -/

namespace Store

/-- a proper system: whatever stands somewhere stands in a folder, and under names that the system accepts -/
structure WellFormed (s : Store) : Prop where
  above : ∀ place name entry, s.entries.get? (place ++ [name]) = some entry → s.entries.get? place = some .folder
  named : ∀ place entry, s.entries.get? place = some entry →
    ∀ name ∈ place, (∀ c ∈ name, isAccepted c = true) ∧ octetCount name ≤ maxName

theorem WellFormed.around (h : s.WellFormed) {place rest : Place} {entry : Entry} (hne : rest ≠ [])
    (hentry : s.entries.get? (place ++ rest) = some entry) : s.entries.get? place = some .folder := by
  induction rest using List.reverseRecOn generalizing entry with
  | nil => exact absurd rfl hne
  | append_singleton rest name ih =>
    rw [← List.append_assoc] at hentry
    have habove := h.above _ name entry hentry
    by_cases hrest : rest = []
    · rwa [hrest, List.append_nil] at habove
    · exact ih hrest habove

theorem member_ok {folder : Place} {name : Text} (hback : name ≠ "..") (hshort : octetCount name ≤ maxName) :
    member folder name = .ok (folder ++ [name]) := by
  rw [member, if_neg hback, if_neg (Nat.not_lt.2 hshort)]

theorem followFolders_ok {folder : Place} {names : List Text} (hback : Text.ofString ".." ∉ names)
    (hshort : ∀ name ∈ names, octetCount name ≤ maxName)
    (hfolders : ∀ before, before <+: names → s.entries.get? (folder ++ before) = some .folder) :
    s.followFolders folder names = .ok (folder ++ names) := by
  induction names generalizing folder with
  | nil =>
    rw [List.append_nil]
    rfl
  | cons name rest ih =>
    rw [List.mem_cons, not_or] at hback
    have hfirst := hfolders [name] ⟨rest, rfl⟩
    have hinner : ∀ before, before <+: rest → s.entries.get? (folder ++ [name] ++ before) = some .folder := by
      intro before hbefore
      rw [List.append_assoc]
      exact hfolders (name :: before) ((List.prefix_cons_inj name).2 hbefore)
    have hrest := ih hback.2 (fun other h => hshort other (List.mem_cons_of_mem _ h)) hinner
    rw [List.append_assoc] at hrest
    rw [followFolders, member_ok (Ne.symm hback.1) (hshort name List.mem_cons_self)]
    simp only [bind, Except.bind, hfirst]
    exact hrest

theorem follow_ok {folder : Place} {names : List Text} (hback : Text.ofString ".." ∉ names)
    (hshort : ∀ name ∈ names, octetCount name ≤ maxName)
    (hfolders : ∀ before, before <+: names → s.entries.get? (folder ++ before) = some .folder) :
    s.follow folder names = .ok (folder ++ names) := by
  have hstart := hfolders [] List.nil_prefix
  rw [List.append_nil] at hstart
  rw [follow, hstart]
  rcases List.eq_nil_or_concat names with rfl | ⟨around, name, rfl⟩
  · rw [List.append_nil]
    rfl
  · simp only [List.concat_eq_append, List.mem_append, List.mem_singleton, not_or] at hback hshort hfolders ⊢
    have haround := followFolders_ok hback.1 (fun other h => hshort other (.inl h)) fun before hbefore =>
      hfolders before (hbefore.trans (List.prefix_append _ _))
    simp only [List.getLast?_concat, List.dropLast_concat, haround, bind, Except.bind,
      member_ok (Ne.symm hback.2) (hshort name (.inr rfl)), List.append_assoc]

/-- a path that can be followed is refused only for its length -/
theorem reach_of_follow {p : Path} {place : Place} (hp : p.Accepted) (h : s.follow (s.start p) p.parts = .ok place) :
    s.reach p = .ok place ∨ s.reach p = .error (.os .nameTooLong p.text .plain) := by
  obtain ⟨count, hcount⟩ := checkText_ok.2 hp
  by_cases hlong : pathLimit ≤ count
  · right
    unfold reach
    rw [hcount]
    simp only [bind, Except.bind, hlong, if_true]
    rfl
  · exact .inl (reach_eq_ok.2 ⟨count, hcount, Nat.lt_of_not_le hlong, h⟩)

theorem accepted_of_parts {p : Path} (h : ∀ name ∈ p.parts, ∀ c ∈ name, isAccepted c = true) : p.Accepted := by
  intro c hc
  have hsmall : ∀ t ∈ [Root.relative.text, Root.single.text, Root.double.text, Text.ofString "/", Text.ofString "."],
      ∀ c ∈ t, isAccepted c = true := by decide
  unfold Path.text at hc
  simp only at hc
  split at hc
  · exact hsmall _ (by decide) c hc
  · rcases List.mem_append.1 hc with hc | hc
    · refine hsmall p.root.text ?_ c hc
      cases p.root <;> decide
    · rcases Text.mem_joinWith hc with hc | ⟨name, hname, hc⟩
      · exact hsmall _ (by decide) c hc
      · exact h name hname c hc

/-- in a proper system a folder with a file below its place is found, unless its path leads back or is too long -/
theorem WellFormed.look_ne_none (h : s.WellFormed) {p : Path} (hback : Text.ofString ".." ∉ p.parts) {place : Place}
    (hbelow : isBelow (s.placeOf p) place = true) {octets : List UInt8} (hfile : s.fileAt place = some octets) :
    s.look p ≠ .ok none := by
  have hplace : s.placeOf p = s.start p ++ p.parts := foldl_stepTo hback _
  rw [hplace, isBelow, Bool.and_eq_true, List.isPrefixOf_iff_prefix, decide_eq_true_eq] at hbelow
  obtain ⟨⟨rest, rfl⟩, hlength⟩ := hbelow
  have hrest : rest ≠ [] := by
    rintro rfl
    rw [List.append_nil] at hlength
    exact Nat.lt_irrefl _ hlength
  have hentry := fileAt_eq_some.1 hfile
  have hfolders : ∀ before, before <+: p.parts → s.entries.get? (s.start p ++ before) = some .folder := by
    rintro before ⟨others, hparts⟩
    have hlonger : s.entries.get? (s.start p ++ before ++ (others ++ rest)) = some (.file octets) := by
      rwa [← List.append_assoc, List.append_assoc (s.start p), hparts]
    exact h.around (List.append_ne_nil_of_right_ne_nil _ hrest) hlonger
  have hnamed : ∀ name ∈ p.parts, (∀ c ∈ name, isAccepted c = true) ∧ octetCount name ≤ maxName := fun name hname =>
    h.named _ _ hentry name (List.mem_append_left _ (List.mem_append_right _ hname))
  have hfollow := follow_ok hback (fun name hname => (hnamed name hname).2) hfolders
  have hfolder := hfolders p.parts List.prefix_rfl
  unfold look
  rcases reach_of_follow (accepted_of_parts fun name hname => (hnamed name hname).1) hfollow with hreach | hreach
  · rw [hreach]
    simp only [hfolder]
    intro hnone
    cases hnone
  · rw [hreach]
    intro hnone
    cases hnone

end Store

/-! ## Emissions -/

/-- the report of an emission lists every page once, in the order of the paths, with its size -/
structure EmissionReport (folder : Path) (pages : PageMap) (e : Emitted) : Prop where
  folder : e.folder = folder
  listed : ∀ name, name ∈ e.files.map (·.name) ↔ name ∈ pages.keys
  increasing : (e.files.map (·.name)).Pairwise fun a b => Text.lt a b = true
  sizes : ∀ w ∈ e.files, ∃ page octets, pages.get? w.name = some page ∧ Text.encode page.content = .ok octets ∧
    w.lines = page.content.count 10 ∧ w.octets = octets.length
  totalLines : e.totalLines = (e.files.map (·.lines)).sum
  totalOctets : e.totalOctets = (e.files.map (·.octets)).sum

/-- some files have below a place only files that pages are written to -/
def OnlyPages (pages : PageMap) (there : Place) (files : Place → Option (List UInt8)) : Prop :=
  ∀ place, Store.isBelow there place = true → (files place).isSome = true →
    ∃ name ∈ pages.keys, place = there ++ Path.partsOf name

theorem onlyPages_congr {pages : PageMap} {there : Place} {files files' : Place → Option (List UInt8)}
    (h : ∀ place, (∀ name ∈ pages.keys, place ≠ there ++ Path.partsOf name) → files' place = files place) :
    OnlyPages pages there files' ↔ OnlyPages pages there files := by
  refine forall₂_congr fun place _ => ?_
  by_cases hpage : ∃ name ∈ pages.keys, place = there ++ Path.partsOf name
  · exact ⟨fun _ _ => hpage, fun _ _ => hpage⟩
  · rw [h place fun name hname heq => hpage ⟨name, hname, heq⟩]

/-- what an emission makes of the files -/
structure EmissionFiles (options : EmitOptions) (folder : Path) (pages : PageMap) (s s' : Store) : Prop where
  /-- at the place of a page stands the text of the greatest of the paths that lead there -/
  written : ∀ name ∈ pages.keys, ∃ greatest page octets, pages.get? greatest = some page ∧
    Path.partsOf greatest = Path.partsOf name ∧
    (∀ other ∈ pages.keys, Path.partsOf other = Path.partsOf name → Text.le other greatest = true) ∧
    Text.encode page.content = .ok octets ∧ s'.fileAt (s.placeOf folder ++ Path.partsOf name) = some octets
  /-- another file below the folder goes with a folder that is cleared -/
  cleared : Cleared options folder s → OnlyPages pages (s.placeOf folder) s'.fileAt
  /-- otherwise it stays -/
  kept : ¬ Cleared options folder s → ∀ place, (∀ name ∈ pages.keys, place ≠ s.placeOf folder ++ Path.partsOf name) →
    s'.fileAt place = s.fileAt place
  /-- files elsewhere stay in any case -/
  outside : ∀ place, Store.isBelow (s.placeOf folder) place = false → s'.fileAt place = s.fileAt place

theorem prepared_plain {options : EmitOptions} (hplain : options.formatter.getD [] = []) {pages out : PageMap}
    (h : (prepared programs options pages).perform s = (.ok out, s')) : out = pages ∧ s' = s := by
  have hformatted : formatted programs options.formatter pages = pure pages := by
    unfold formatted
    cases hf : options.formatter with
    | none => rfl
    | some command =>
      rw [hf] at hplain
      obtain rfl : command = [] := hplain
      rfl
  rw [prepared, hformatted, pure_bind] at h
  obtain ⟨_, _, h⟩ := Act.ofExcept_bind_eq_ok.1 h
  cases h
  exact ⟨rfl, rfl⟩

/-- an emission without a formatter clears the folder and writes the pages in order -/
theorem emit_ok {options : EmitOptions} (hplain : options.formatter.getD [] = []) {pages : PageMap} {e : Emitted}
    (h : (emit programs options folder pages).perform s = (.ok e, s')) :
    (∀ name ∈ pages.keys, ∃ p, Path.ofPage name = .ok p) ∧ e.folder = folder ∧
      List.Forall₂ Reported (inOrder pages) e.files ∧ ∃ t, (clearing options folder).perform s = (.ok (), t) ∧
        s'.fileAt = filesAfter (s.placeOf folder) (inOrder pages) t.fileAt := by
  rw [emit_eq] at h
  obtain ⟨out, _, hout, hemit⟩ := Act.bind_eq_ok.1 h
  have hpaths := checkPaths_ok.1 (checkPaths_of_prepared hout)
  obtain ⟨rfl, rfl⟩ := prepared_plain hplain hout
  obtain ⟨_, t, hclear, hwrite⟩ := Act.bind_eq_ok.1 hemit
  unfold writePages at hwrite
  obtain ⟨_, _, hwrite⟩ := Act.ofExcept_bind_eq_ok.1 hwrite
  obtain ⟨ws, _, hws, hwrite⟩ := Act.bind_eq_ok.1 hwrite
  cases hwrite
  obtain ⟨hreports, hfiles⟩ := writeEach_ok (fun page hp => hpaths _ (mem_keys_of_inOrder hp)) hws
  refine ⟨hpaths, rfl, hreports, t, hclear, ?_⟩
  rw [hfiles, Store.placeOf_congr (clearing_ok hclear).1]

theorem emissionReport {pages : PageMap} {e : Emitted} (hfolder : e.folder = folder)
    (h : List.Forall₂ Reported (inOrder pages) e.files) : EmissionReport folder pages e := by
  have hnames : e.files.map (·.name) = Text.sorted pages.keys := by
    have hsame : List.Forall₂ Eq (e.files.map (·.name)) ((inOrder pages).map Prod.fst) :=
      List.forall₂_map_left_iff.2 (List.forall₂_map_right_iff.2 (h.flip.imp fun w page ⟨_, _, hw⟩ => by rw [hw]))
    rw [List.forall₂_eq_eq_eq, inOrder_names] at hsame
    exact hsame
  refine ⟨hfolder, fun name => by rw [hnames, Text.mem_sorted], ?_, fun w hw => ?_, rfl, rfl⟩
  · rw [hnames]
    exact Text.sorted_increasing pages.nodup
  · obtain ⟨page, hpage, octets, hoctets, rfl⟩ := exists_of_forall₂ h hw
    obtain ⟨f, hf, hcontent⟩ := get?_of_inOrder hpage
    exact ⟨f, octets, hf, hcontent.symm ▸ hoctets, by rw [hcontent], rfl⟩

/-- each page's text has octets, since it was written -/
theorem encode_of_reported {pages : List (Text × Text)} {ws : List Written} (h : List.Forall₂ Reported pages ws)
    {page : Text × Text} (hp : page ∈ pages) : ∃ octets, Text.encode page.2 = .ok octets := by
  obtain ⟨w, _, octets, hoctets, _⟩ := exists_of_forall₂ h.flip hp
  exact ⟨octets, hoctets⟩

theorem isBelow_page {name : Text} {p : Path} (hp : Path.ofPage name = .ok p) (there : Place) :
    Store.isBelow there (there ++ Path.partsOf name) = true := by
  have hlength := List.length_pos_iff.2 (no_way_back hp).2
  rw [Store.isBelow, Bool.and_eq_true, List.isPrefixOf_iff_prefix, decide_eq_true_eq, List.length_append]
  exact ⟨List.prefix_append _ _, by omega⟩

theorem emissionFiles {options : EmitOptions} (hplain : options.formatter.getD [] = []) {pages : PageMap} {e : Emitted}
    (h : (emit programs options folder pages).perform s = (.ok e, s')) : EmissionFiles options folder pages s s' := by
  obtain ⟨hpaths, -, hreports, t, hclear, hfiles⟩ := emit_ok hplain h
  obtain ⟨-, hcleared, hkept⟩ := clearing_ok hclear
  have hother : ∀ place, (∀ name ∈ pages.keys, place ≠ s.placeOf folder ++ Path.partsOf name) →
      s'.fileAt place = t.fileAt place := fun place hplace => by
    rw [hfiles]
    exact filesAfter_other fun page hp heq => hplace page.1 (mem_keys_of_inOrder hp) heq.symm
  refine ⟨fun name hname => ?_, fun hc place hb hsome => ?_, fun hc place hplace => ?_, fun place hb => ?_⟩
  · obtain ⟨before, page, after, hsplit, hparts, hafter, hgreatest⟩ := exists_greatest hname
    have hmem : page ∈ inOrder pages := by
      rw [hsplit]
      exact List.mem_append_right _ List.mem_cons_self
    obtain ⟨f, hf, hcontent⟩ := get?_of_inOrder hmem
    obtain ⟨octets, hoctets⟩ := encode_of_reported hreports hmem
    refine ⟨page.1, f, octets, hf, hparts, hgreatest, hcontent.symm ▸ hoctets, ?_⟩
    rw [hfiles, hsplit, ← hparts, filesAfter_last hafter, hoctets]
    rfl
  · by_contra hnone
    push Not at hnone
    rw [hother place hnone, hcleared hc place hb] at hsome
    cases hsome
  · rw [hother place hplace]
    exact hkept place fun hboth => hc hboth.1
  · have hplace : ∀ name ∈ pages.keys, place ≠ s.placeOf folder ++ Path.partsOf name := by
      rintro name hname rfl
      obtain ⟨p, hp⟩ := hpaths name hname
      rw [isBelow_page hp] at hb
      cases hb
    rw [hother place hplace]
    exact hkept place fun hboth => by rw [hb] at hboth; cases hboth.2

/-- **An emission writes the pages and nothing else.** When an emission without a formatter succeeds, its report lists
the pages in the order of their paths, the pages stand below the folder, and no file elsewhere changes. When it was to
clear the folder, no other file is left below the folder if and only if the folder was found or there was no other file;
in a proper system that is so whenever the path of the folder does not lead back. -/
theorem emitted_files {options : EmitOptions} (hplain : options.formatter.getD [] = []) {pages : PageMap} {e : Emitted}
    (h : (emit programs options folder pages).perform s = (.ok e, s')) :
    EmissionReport folder pages e ∧ EmissionFiles options folder pages s s' ∧
    (options.clear = true → (OnlyPages pages (s.placeOf folder) s'.fileAt ↔
      s.look folder = .ok (some .folder) ∨ OnlyPages pages (s.placeOf folder) s.fileAt)) ∧
    (options.clear = true → s.WellFormed → Text.ofString ".." ∉ folder.parts →
      OnlyPages pages (s.placeOf folder) s'.fileAt) := by
  obtain ⟨-, hfolder, hreports, t, hclear, -⟩ := emit_ok hplain h
  have hfiles := emissionFiles hplain h
  have hiff : options.clear = true → (OnlyPages pages (s.placeOf folder) s'.fileAt ↔
      s.look folder = .ok (some .folder) ∨ OnlyPages pages (s.placeOf folder) s.fileAt) := by
    intro hc
    by_cases hfound : s.look folder = .ok (some .folder)
    · exact ⟨fun _ => .inl hfound, fun _ => hfiles.cleared ⟨hc, hfound⟩⟩
    · have hkept := hfiles.kept fun hcleared => hfound hcleared.2
      exact (onlyPages_congr hkept).trans ⟨.inr, fun h => h.resolve_left hfound⟩
  refine ⟨emissionReport hfolder hreports, hfiles, hiff, fun hc hproper hback => (hiff hc).2 ?_⟩
  rcases look_of_clearing hc hclear with hfound | ⟨hmissing, -⟩
  · exact .inl hfound
  · refine .inr fun place hb hsome => ?_
    obtain ⟨octets, hoctets⟩ := Option.isSome_iff_exists.1 hsome
    exact absurd hmissing (hproper.look_ne_none hback hb hoctets)

theorem earlierRun_wellFormed : earlierRun.WellFormed := by
  have habove : ∀ e ∈ earlierRun.entries.entries, e.1 = [] ∨ earlierRun.entries.get? e.1.dropLast = some .folder := by
    decide +kernel
  have hnamed : ∀ e ∈ earlierRun.entries.entries, ∀ name ∈ e.1,
      (∀ c ∈ name, isAccepted c = true) ∧ Store.octetCount name ≤ Store.maxName := by decide +kernel
  refine ⟨fun place name entry h => ?_, fun place entry h => hnamed _ (OrderedMap.mem_entries.2 h)⟩
  have hfolder := (habove _ (OrderedMap.mem_entries.2 h)).resolve_left (by simp)
  rwa [List.dropLast_concat] at hfolder

/-- two spellings of one path, of which the greater one stays -/
def twoSpellings : PageMap := OrderedMap.ofList [("a.md", .plain "new"), ("./a.md", .plain "other")]

theorem emission_clears_earlier_run : ∃ e s',
    (emit onlyFalse ⟨true, none⟩ (Path.ofText "out") twoSpellings).perform earlierRun = (.ok e, s') ∧
      EmissionReport (Path.ofText "out") twoSpellings e ∧
      EmissionFiles ⟨true, none⟩ (Path.ofText "out") twoSpellings earlierRun s' ∧
      OnlyPages twoSpellings (earlierRun.placeOf (Path.ofText "out")) s'.fileAt ∧
      s'.files = [(Text.ofString "out/a.md", [110, 101, 119])] := by
  obtain ⟨e, he⟩ := Act.exists_of_isOk (emit onlyFalse ⟨true, none⟩ (Path.ofText "out") twoSpellings)
    earlierRun (by decide +kernel)
  obtain ⟨hreport, hfiles, -, honly⟩ := emitted_files rfl he
  exact ⟨e, _, he, hreport, hfiles, honly rfl earlierRun_wellFormed (by decide +kernel), by decide +kernel⟩

/-- a path that leads back through a missing folder is found only once the folders for the first page are made -/
theorem stale_file_stays :
    ¬ ∀ (programs : Formatter.Programs) (folder : Path) (pages : PageMap) (s s' : Store) (e : Emitted), s.WellFormed →
      (emit programs ⟨true, none⟩ folder pages).perform s = (.ok e, s') →
        OnlyPages pages (s.placeOf folder) s'.fileAt := by
  intro hclaim
  obtain ⟨e, he⟩ := Act.exists_of_isOk
    (emit onlyFalse ⟨true, none⟩ (Path.ofText "a/../out") (PageMap.page "x.md" (.plain "x"))) earlierRun (by decide +kernel)
  obtain ⟨name, hname, hplace⟩ := hclaim _ _ _ _ _ e earlierRun_wellFormed he
    (["work", "out", "old.md"].map Text.ofString) (by decide +kernel) (by decide +kernel)
  obtain rfl : name = "x.md" := List.mem_singleton.1 hname
  revert hplace
  decide +kernel

end Files

end InterfacePages
