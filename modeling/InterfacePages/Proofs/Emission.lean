/-
What a failed emission leaves of the files.

`emit` is `prepared`, then `clearing`, then writing (`emit_eq`), and preparing leaves the files alone as long as the
formatter's processes do (`prepared_steady`), whatever programs there are. A fault found while preparing therefore loses
nothing. Writing fails with something else than an answer of the system only at a page that is not `Fit`: its path or
its text cannot be handed to the system at all (`writeEach_fault`). Nothing checks this before the folder is cleared.

- `failed_emission`: if every prepared page is fit, such a failure leaves every file as it was. If one is not, the
  folder has been cleared and the pages before it written, and of the files below the folder only those are left. A run
  that makes pages and emits them fails in no other way.
- `emission_loses_files`: a page with a lone surrogate costs the file of the run before.
-/
import InterfacePages.Command.Run
import InterfacePages.Proofs.OrderedMaps
import InterfacePages.Proofs.StoreFaults
import InterfacePages.Proofs.Texts

namespace InterfacePages

namespace Files

variable {ρ τ : Type} {programs : Formatter.Programs} {folder : Path} {s s' : Store} {f : Fault}

/-! ## Stages -/

/-- what is done before any file is touched: pages are formatted and their paths checked -/
def prepared (programs : Formatter.Programs) (options : EmitOptions) (pages : PageMap) : Act Store PageMap := do
  let pages ← formatted programs options.formatter pages
  Act.ofExcept (checkPaths pages.keys)
  return pages

/-- clears the folder if asked to -/
def clearing (options : EmitOptions) (folder : Path) : Act Store Unit :=
  if options.clear then deleteFolder folder else pure ()

theorem emit_eq (programs : Formatter.Programs) (options : EmitOptions) (folder : Path) (pages : PageMap) :
    emit programs options folder pages = (do
      let out ← prepared programs options pages
      clearing options folder
      writePages folder out) := by
  unfold emit prepared clearing
  simp only [bind_assoc, pure_bind]
  cases options.clear <;> simp

/-! ## Preparing -/

/-- the processes that a formatter starts for some pages leave the files as they are -/
def Quiet (programs : Formatter.Programs) (formatter : Option Text) (pages : PageMap) (s : Store) : Prop :=
  ∀ command, formatter = some command → ∀ page ∈ pages.entries, ∀ words octets,
    Formatter.wordsFor command page.1 = .ok words → words.mapM Formatter.argument = .ok octets →
      (programs.run octets (Formatter.encoded page.2.content).toOption s).2 = s

/-- an action leaves the files as they are -/
def Steady (s : Store) (act : Act Store ρ) : Prop := (act.perform s).2 = s

theorem Steady.bind {act : Act Store ρ} {next : ρ → Act Store τ} (ha : Steady s act) (hn : ∀ r, Steady s (next r)) :
    Steady s (act >>= next) := by
  unfold Steady at ha hn ⊢
  rw [Act.perform_bind]
  rcases hs : act.perform s with ⟨e | r, t⟩ <;> rw [hs] at ha
  · exact ha
  · change t = s at ha
    subst ha
    exact hn r

theorem Steady.bind_ok {act : Act Store ρ} {next : ρ → Act Store τ} {r : ρ} (ha : act.perform s = (.ok r, s))
    (hn : Steady s (next r)) : Steady s (act >>= next) := by
  unfold Steady
  rw [Act.perform_bind_ok ha]
  exact hn

theorem Steady.ofExcept (r : Except Fault ρ) : Steady s (Act.ofExcept r) := rfl

theorem Steady.pure (r : ρ) : Steady s (pure r : Act Store ρ) := rfl

theorem Steady.state {act : Act Store ρ} (h : Steady s act) {r : Except Fault ρ} (hp : act.perform s = (r, s')) :
    s' = s := by
  unfold Steady at h
  rw [hp] at h
  exact h

theorem start_steady {words : List Text} {content : Text}
    (hq : ∀ octets, words.mapM Formatter.argument = .ok octets →
      (programs.run octets (Formatter.encoded content).toOption s).2 = s) :
    Steady s (Formatter.start programs words content) := by
  unfold Formatter.start
  cases words with
  | nil => rfl
  | cons name rest =>
    cases ho : (name :: rest).mapM Formatter.argument with
    | error e => rfl
    | ok octets =>
      refine Steady.bind_ok rfl (Steady.bind_ok (Act.perform_get s) ?_)
      cases programs.refusal s octets with
      | some cause => rfl
      | none => exact Steady.bind (hq octets ho) fun _ => (Steady.ofExcept _).bind fun _ => Steady.pure _

theorem formatPage_steady {command path content : Text}
    (hq : ∀ words octets, Formatter.wordsFor command path = .ok words → words.mapM Formatter.argument = .ok octets →
      (programs.run octets (Formatter.encoded content).toOption s).2 = s) :
    Steady s (Formatter.formatPage programs command path content) := by
  unfold Formatter.formatPage
  cases hw : Formatter.wordsFor command path with
  | error e => rfl
  | ok words =>
    refine (start_steady fun octets => hq words octets hw).bind fun answer => ?_
    refine (Steady.ofExcept _).bind fun _ => (Steady.ofExcept _).bind fun _ => ?_
    split
    · rfl
    · rfl

theorem formatEach_steady {command : Text} {pages : List (Text × Fragment)}
    (hq : ∀ page ∈ pages, ∀ words octets, Formatter.wordsFor command page.1 = .ok words →
      words.mapM Formatter.argument = .ok octets →
        (programs.run octets (Formatter.encoded page.2.content).toOption s).2 = s) :
    Steady s (Formatter.formatEach programs command pages) := by
  induction pages with
  | nil => rfl
  | cons page rest ih =>
    refine (formatPage_steady (hq page List.mem_cons_self)).bind fun _ => ?_
    exact (ih fun p hp => hq p (List.mem_cons_of_mem _ hp)).bind fun _ => Steady.pure _

theorem prepared_steady {options : EmitOptions} {pages : PageMap} (hq : Quiet programs options.formatter pages s) :
    Steady s (prepared programs options pages) := by
  refine Steady.bind ?_ fun out => (Steady.ofExcept _).bind fun _ => Steady.pure _
  unfold formatted
  split
  · rfl
  · next command hc =>
    split
    · rfl
    · exact (formatEach_steady (hq command hc)).bind fun _ => Steady.pure _

/-! ## Paths of prepared pages -/

theorem ofPage_eq {name : Text} {p : Path} (h : Path.ofPage name = .ok p) : p = Path.ofText name := by
  unfold Path.ofPage Path.inside at h
  simp only at h
  split at h <;> cases h
  rfl

theorem checkPaths_ok {names : List Text} :
    checkPaths names = .ok () ↔ ∀ name ∈ names, ∃ p, Path.ofPage name = .ok p := by
  induction names with
  | nil => exact ⟨fun _ _ h => absurd h List.not_mem_nil, fun _ => rfl⟩
  | cons name rest ih =>
    rw [List.forall_mem_cons, ← ih]
    cases h : Path.ofPage name with
    | error e => simp [checkPaths, h, bind, Except.bind]
    | ok p => simp [checkPaths, h, bind, Except.bind]

theorem mem_keys_of_inOrder {pages : PageMap} {page : Text × Text} (h : page ∈ inOrder pages) :
    page.1 ∈ pages.keys := by
  obtain ⟨name, hn, hm⟩ := List.mem_filterMap.1 h
  cases hg : pages.get? name with
  | none => simp [hg] at hm
  | some fragment =>
    simp only [hg, Option.map_some, Option.some.injEq] at hm
    subst hm
    exact Text.mem_sorted.1 hn

theorem checkPaths_of_prepared {options : EmitOptions} {pages out : PageMap}
    (h : (prepared programs options pages).perform s = (.ok out, s')) : checkPaths out.keys = .ok () := by
  obtain ⟨pages', t, _, h⟩ := Act.bind_eq_ok.1 h
  obtain ⟨u, t', hc, h⟩ := Act.bind_eq_ok.1 h
  cases h
  exact (Prod.mk.inj hc).1

theorem ofPage_of_prepared {options : EmitOptions} {pages out : PageMap}
    (h : (prepared programs options pages).perform s = (.ok out, s')) :
    ∀ page ∈ inOrder out, ∃ p, Path.ofPage page.1 = .ok p :=
  fun _ hp => checkPaths_ok.1 (checkPaths_of_prepared h) _ (mem_keys_of_inOrder hp)

/-! ## Writing -/

/-- where a page is written -/
def target (folder : Path) (name : Text) : Path := folder.join (Path.partsOf name)

/-- a page's path and text can be handed to the system -/
def Fit (folder : Path) (page : Text × Text) : Prop :=
  (target folder page.1).Accepted ∧ ∃ octets, Formatter.encoded page.2 = .ok octets

theorem writePage_eq {name : Text} {p : Path} (hp : Path.ofPage name = .ok p) (folder : Path) (content : Text) :
    writePage folder name content = (do
      makeFolders (target folder name).parent
      let octets ← Act.ofExcept (Formatter.encoded content)
      writeFile (target folder name) octets
      return ⟨name, content.count 10, octets.length⟩) := by
  unfold writePage
  rw [hp, ofPage_eq hp]
  rfl

theorem writePage_system {page : Text × Text} {p : Path} (hp : Path.ofPage page.1 = .ok p) (hfit : Fit folder page) :
    SystemOnly (writePage folder page.1 page.2) := by
  obtain ⟨hacc, octets, ho⟩ := hfit
  rw [writePage_eq hp, ho]
  refine (makeFolders_system hacc.parent).bind fun _ => SystemOnly.bind ?_ fun _ => ?_
  · exact SystemOnly.pure octets
  · exact (writeFile_system hacc _).bind fun _ => SystemOnly.pure _

theorem fit_of_written {page : Text × Text} {p : Path} (hp : Path.ofPage page.1 = .ok p) {w : Written}
    (h : (writePage folder page.1 page.2).perform s = (.ok w, s')) : Fit folder page := by
  rw [writePage_eq hp] at h
  obtain ⟨_, s₁, _, h⟩ := Act.bind_eq_ok.1 h
  obtain ⟨octets, s₂, ho, h⟩ := Act.bind_eq_ok.1 h
  obtain ⟨_, s₃, hw, _⟩ := Act.bind_eq_ok.1 h
  refine ⟨?_, octets, (Prod.mk.inj ho).1⟩
  simp only [writeFile, Act.perform_ofOutcome] at hw
  split at hw
  · cases hw
  · next place hr => exact accepted_of_reach hr

/-- writing stops for another reason than an answer of the system at the first page that is not fit -/
theorem writeEach_fault {pages : List (Text × Text)} (hp : ∀ page ∈ pages, ∃ p, Path.ofPage page.1 = .ok p)
    (h : (writeEach folder pages).perform s = (.error f, s')) (hf : f.family ≠ .system) :
    ∃ before page after written t, pages = before ++ page :: after ∧ (∀ p ∈ before, Fit folder p) ∧ ¬ Fit folder page ∧
      (writeEach folder before).perform s = (.ok written, t) ∧
      (writePage folder page.1 page.2).perform t = (.error f, s') := by
  induction pages generalizing s with
  | nil => cases h
  | cons page rest ih =>
    obtain ⟨p, hp0⟩ := hp page List.mem_cons_self
    unfold writeEach at h
    rcases Act.bind_eq_error.1 h with h1 | ⟨w, t, hw, h⟩
    · refine ⟨[], page, rest, [], s, rfl, fun q hq => absurd hq List.not_mem_nil, fun hfit => ?_, rfl, h1⟩
      exact hf (writePage_system hp0 hfit s f s' h1)
    · rcases Act.bind_eq_error.1 h with h2 | ⟨ws, t', _, h⟩
      · obtain ⟨before, bad, after, written, u, he, hfits, hbad, hb, hu⟩ :=
          ih (fun q hq => hp q (List.mem_cons_of_mem _ hq)) h2
        refine ⟨page :: before, bad, after, w :: written, u, by rw [he, List.cons_append], ?_, hbad, ?_, hu⟩
        · exact List.forall_mem_cons.2 ⟨fit_of_written hp0 hw, hfits⟩
        · unfold writeEach
          rw [Act.perform_bind_ok hw, Act.perform_bind_ok hb]
          rfl
      · cases h

/-! ## Files that are left -/

/-- files that stand after an action stood there before with the same octets, or stand where `allowed` says -/
def FilesOnlyAt (allowed : Place → Prop) (act : Act Store ρ) : Prop :=
  ∀ s r s', act.perform s = (r, s') → ∀ place octets, s'.entries.get? place = some (.file octets) →
    s.entries.get? place = some (.file octets) ∨ allowed place

variable {allowed : Place → Prop}

theorem FilesOnlyAt.trans (a b c : Store)
    (hab : ∀ place octets, b.entries.get? place = some (.file octets) →
      a.entries.get? place = some (.file octets) ∨ allowed place)
    (hbc : ∀ place octets, c.entries.get? place = some (.file octets) →
      b.entries.get? place = some (.file octets) ∨ allowed place)
    (place : Place) (octets : List UInt8) (hc : c.entries.get? place = some (.file octets)) :
    a.entries.get? place = some (.file octets) ∨ allowed place :=
  (hbc place octets hc).elim (hab place octets) .inr

theorem FilesOnlyAt.bind {act : Act Store ρ} {next : ρ → Act Store τ} (ha : FilesOnlyAt allowed act)
    (hn : ∀ r, FilesOnlyAt allowed (next r)) : FilesOnlyAt allowed (act >>= next) :=
  Act.Within.bind FilesOnlyAt.trans ha hn

theorem FilesOnlyAt.mono {allowed' : Place → Prop} {act : Act Store ρ} (ha : FilesOnlyAt allowed act)
    (hall : ∀ place, allowed place → allowed' place) : FilesOnlyAt allowed' act :=
  fun s r s' h place octets hf => (ha s r s' h place octets hf).imp_right (hall place)

theorem FilesOnlyAt.of_steady {act : Act Store ρ} (ha : ∀ s, Steady s act) : FilesOnlyAt allowed act := by
  intro s r s' h place octets hf
  rw [(ha s).state h] at hf
  exact .inl hf

theorem makeFolder_files (p : Path) : FilesOnlyAt allowed (makeFolder p) := by
  intro s r s' h place octets hf
  simp only [makeFolder, Act.perform_ofOutcome] at h
  split at h
  · cases h; exact .inl hf
  · split at h <;> cases h
    · exact .inl hf
    · simp only [Store.put, OrderedMap.insert, OrderedMap.get?_upsert] at hf
      split at hf
      · cases hf
      · exact .inl hf

theorem unlessFolder_steady (p : Path) (e : Fault) (s : Store) : Steady s (unlessFolder p e) := by
  unfold unlessFolder
  split
  · refine Steady.bind rfl fun _ => (Steady.ofExcept _).bind fun _ => ?_
    split
    · rfl
    · rfl
  · rfl

/-- making folders one inside the other changes no more than making single folders does -/
theorem makeFoldersUpTo_within {R : Store → Store → Prop} (hrefl : ∀ a, R a a)
    (htrans : ∀ a b c, R a b → R b c → R a c) (hmake : ∀ p, Act.Within R (makeFolder p)) (fuel : Nat) (p : Path) :
    Act.Within R (makeFoldersUpTo fuel p) := by
  have hsteady : ∀ act : Act Store Unit, (∀ s, Steady s act) → Act.Within R act := fun act ha s r s' h => by
    rw [(ha s).state h]
    exact hrefl s
  induction fuel generalizing p with
  | zero => exact hsteady _ fun _ => rfl
  | succ fuel ih =>
    refine (hmake p).tryCatch htrans fun e => ?_
    split
    · split
      · exact hsteady _ fun _ => rfl
      · refine (ih p.parent).bind htrans fun _ => (hmake p).tryCatch htrans fun e' => ?_
        split
        · exact hsteady _ fun _ => rfl
        · exact hsteady _ (unlessFolder_steady p _)
    · exact hsteady _ (unlessFolder_steady p _)

theorem makeFoldersUpTo_files (fuel : Nat) (p : Path) : FilesOnlyAt allowed (makeFoldersUpTo fuel p) :=
  makeFoldersUpTo_within (fun _ _ _ => .inl) FilesOnlyAt.trans makeFolder_files fuel p

theorem writeFile_files (p : Path) (octets : List UInt8) :
    FilesOnlyAt (fun place => ∃ t : Store, t.reach p = .ok place) (writeFile p octets) := by
  intro s r s' h place octets' hf
  simp only [writeFile, Act.perform_ofOutcome] at h
  split at h
  · cases h; exact .inl hf
  · next there hr =>
    split at h <;> cases h
    · exact .inl hf
    · simp only [Store.put, OrderedMap.insert, OrderedMap.get?_upsert] at hf
      split at hf
      · next heq => exact .inr ⟨s, heq ▸ hr⟩
      · exact .inl hf

/-- a page leads to a place -/
def LeadsTo (folder : Path) (page : Text × Text) (place : Place) : Prop :=
  ∃ t : Store, t.reach (target folder page.1) = .ok place

theorem writePage_files {page : Text × Text} {p : Path} (hp : Path.ofPage page.1 = .ok p) :
    FilesOnlyAt (LeadsTo folder page) (writePage folder page.1 page.2) := by
  rw [writePage_eq hp]
  refine (makeFoldersUpTo_files _ _).bind fun _ => FilesOnlyAt.bind (.of_steady fun _ => rfl) fun octets => ?_
  exact (writeFile_files _ octets).bind fun _ => .of_steady fun _ => rfl

theorem writeEach_files {pages : List (Text × Text)} (hp : ∀ page ∈ pages, ∃ p, Path.ofPage page.1 = .ok p) :
    FilesOnlyAt (fun place => ∃ page ∈ pages, LeadsTo folder page place) (writeEach folder pages) := by
  induction pages with
  | nil => exact .of_steady fun _ => rfl
  | cons page rest ih =>
    obtain ⟨p, hp0⟩ := hp page List.mem_cons_self
    unfold writeEach
    refine FilesOnlyAt.bind ?_ fun _ => FilesOnlyAt.bind ?_ fun _ => .of_steady fun _ => rfl
    · exact (writePage_files hp0).mono fun place hl => ⟨page, List.mem_cons_self, hl⟩
    · refine (ih fun q hq => hp q (List.mem_cons_of_mem _ hq)).mono fun place ⟨q, hq, hl⟩ => ?_
      exact ⟨q, List.mem_cons_of_mem _ hq, hl⟩

/-- a page that is not fit adds no file, only folders above it -/
theorem writePage_unfit_files {page : Text × Text} {p : Path} (hp : Path.ofPage page.1 = .ok p)
    (hbad : ¬ Fit folder page) : FilesOnlyAt allowed (writePage folder page.1 page.2) := by
  rw [writePage_eq hp]
  refine (makeFoldersUpTo_files _ _).bind fun _ => ?_
  cases ho : Formatter.encoded page.2 with
  | error e => exact .of_steady fun _ => rfl
  | ok octets =>
    refine FilesOnlyAt.bind (.of_steady fun _ => rfl) fun octets => FilesOnlyAt.bind ?_ fun _ => .of_steady fun _ => rfl
    exact (writeFile_files _ octets).mono fun place ⟨t, ht⟩ => absurd ⟨accepted_of_reach ht, _, ho⟩ hbad

theorem removeFolder_missing {p : Path} {place : Place} (hm : s.entries.get? place = none)
    {r : Except Fault Unit} (h : (removeFolder p).perform s = (r, s')) : s'.entries.get? place = none := by
  simp only [removeFolder, Act.perform_ofOutcome] at h
  split at h
  · cases h; exact hm
  · split at h
    · cases h; exact hm
    · split at h
      · cases h; exact hm
      · split at h <;> cases h
        · simp only [Store.remove, OrderedMap.get?_filterKeys, hm, ite_self]
        · exact hm

/-- a folder that is found is emptied and then removed -/
theorem perform_deleteFolder {there : Place} (hr : s.reach folder = .ok there)
    (hs : s.entries.get? there = some .folder) :
    (deleteFolder folder).perform s = (removeFolder folder).perform (s.clear there) := by
  have hl : s.look folder = .ok (some .folder) := by
    unfold Store.look
    rw [hr]
    exact congrArg _ hs
  rw [deleteFolder, Act.perform_bind_ok (Act.perform_get s), hl, Act.perform_bind_ok (Act.perform_ofExcept _ s)]
  simp only [Act.perform_bind_ok (Act.perform_get s), hr]
  rw [Act.perform_bind_ok (Act.perform_ofExcept _ s), Act.perform_bind_ok (Act.perform_change _ s)]

/-- clearing leaves nothing below the folder -/
theorem clearing_below {options : EmitOptions} {there place : Place} (hc : options.clear = true)
    (hr : s.reach folder = .ok there) (hs : s.entries.get? there = some .folder)
    (h : (clearing options folder).perform s = (.ok (), s')) (hb : Store.isBelow there place = true) :
    s'.entries.get? place = none := by
  rw [clearing, if_pos hc, perform_deleteFolder hr hs] at h
  refine removeFolder_missing ?_ h
  simp only [Store.clear, OrderedMap.get?_filterKeys, hb, Bool.not_true, Bool.false_eq_true, if_false]

/-! ## Failed emissions -/

/-- an emission cleared the folder, wrote the pages before one that is not fit, and failed at that one -/
structure BrokeOff (options : EmitOptions) (folder : Path) (before : List (Text × Text)) (page : Text × Text)
    (s : Store) (f : Fault) (s' : Store) : Prop where
  fit : ∀ p ∈ before, Fit folder p
  unfit : ¬ Fit folder page
  reached : ∃ cleared written t, (clearing options folder).perform s = (.ok (), cleared) ∧
    (writeEach folder before).perform cleared = (.ok written, t) ∧
    (writePage folder page.1 page.2).perform t = (.error f, s')

theorem clearing_system (options : EmitOptions) (folder : Path) : SystemOnly (clearing options folder) := by
  unfold clearing
  split
  · exact deleteFolder_system folder
  · exact SystemOnly.pure ()

/-- after preparing, only an unfit page ends an emission with something else than an answer of the system -/
theorem brokeOff_of_prepared {options : EmitOptions} {pages out : PageMap}
    (hout : (prepared programs options pages).perform s = (.ok out, s))
    (h : (emit programs options folder pages).perform s = (.error f, s'))
    (hf : f.family ≠ .system) :
    ∃ before page after, inOrder out = before ++ page :: after ∧ BrokeOff options folder before page s f s' := by
  rw [emit_eq, Act.perform_bind_ok hout] at h
  rcases Act.bind_eq_error.1 h with hc | ⟨_, cleared, hc, h⟩
  · exact absurd (clearing_system options folder s f s' hc) hf
  unfold writePages at h
  rw [checkPaths_of_prepared hout, Act.perform_bind_ok (Act.perform_ofExcept _ _)] at h
  rcases Act.bind_eq_error.1 h with h | ⟨_, _, _, h⟩
  · obtain ⟨before, page, after, written, t, he, hfit, hbad, hb, hw⟩ :=
      writeEach_fault (ofPage_of_prepared hout) h hf
    exact ⟨before, page, after, he, hfit, hbad, cleared, written, t, hc, hb, hw⟩
  · cases h

/-- of the files below a folder that was to be cleared, those are left that were written before breaking off -/
theorem BrokeOff.files_below {options : EmitOptions} {before : List (Text × Text)} {page : Text × Text}
    (hb : BrokeOff options folder before page s f s') (hp : ∀ q ∈ page :: before, ∃ p, Path.ofPage q.1 = .ok p)
    (hc : options.clear = true) {there place : Place} (hr : s.reach folder = .ok there)
    (hs : s.entries.get? there = some .folder) (hbelow : Store.isBelow there place = true) {octets : List UInt8}
    (hfile : s'.entries.get? place = some (.file octets)) : ∃ q ∈ before, LeadsTo folder q place := by
  obtain ⟨cleared, written, t, hclear, hwritten, hlast⟩ := hb.reached
  obtain ⟨⟨p, hp0⟩, hpb⟩ := List.forall_mem_cons.1 hp
  have hunfit : FilesOnlyAt (fun _ => False) (writePage folder page.1 page.2) := writePage_unfit_files hp0 hb.unfit
  have ht := (hunfit t _ s' hlast place octets hfile).resolve_right id
  refine (writeEach_files hpb cleared _ t hwritten place octets ht).resolve_left fun hold => ?_
  rw [clearing_below hc hr hs hclear hbelow] at hold
  cases hold

/-- if every prepared page is fit, or preparing itself fails, nothing is lost -/
theorem kept_of_fit {options : EmitOptions} {pages : PageMap} (hq : Quiet programs options.formatter pages s)
    (h : (emit programs options folder pages).perform s = (.error f, s')) (hf : f.family ≠ .system)
    (hfit : ∀ out, (prepared programs options pages).perform s = (.ok out, s) → ∀ page ∈ inOrder out, Fit folder page) :
    s' = s := by
  have hsteady := prepared_steady hq
  rcases hp : (prepared programs options pages).perform s with ⟨e | out, t⟩
  · have ht : t = s := hsteady.state hp
    rw [emit_eq, Act.perform_bind_error hp] at h
    cases h
    exact ht
  · have ht : t = s := hsteady.state hp
    subst ht
    obtain ⟨before, page, after, he, hb⟩ := brokeOff_of_prepared hp h hf
    have hmem : page ∈ inOrder out := by rw [he]; exact List.mem_append_right _ List.mem_cons_self
    exact absurd (hfit out hp page hmem) hb.unfit

/-- how an emission fails with anything but an answer of the system -/
structure FailedEmission (programs : Formatter.Programs) (options : EmitOptions) (folder : Path) (pages : PageMap)
    (s : Store) (f : Fault) (s' : Store) : Prop where
  /-- nothing is lost if every prepared page is fit, or if preparing itself failed -/
  kept : (∀ out, (prepared programs options pages).perform s = (.ok out, s) → ∀ page ∈ inOrder out, Fit folder page) →
    s' = s
  /-- otherwise it broke off at an unfit page, and below a folder that stood there only the pages before are left -/
  brokeOff : ∀ out, (prepared programs options pages).perform s = (.ok out, s) →
    ∃ before page after, inOrder out = before ++ page :: after ∧ BrokeOff options folder before page s f s' ∧
      (options.clear = true → ∀ there, s.reach folder = .ok there → s.entries.get? there = some .folder →
        ∀ place, Store.isBelow there place = true → ∀ octets, s'.entries.get? place = some (.file octets) →
          ∃ q ∈ before, LeadsTo folder q place)

theorem failedEmission {options : EmitOptions} {pages : PageMap} (hq : Quiet programs options.formatter pages s)
    (h : (emit programs options folder pages).perform s = (.error f, s')) (hf : f.family ≠ .system) :
    FailedEmission programs options folder pages s f s' := by
  refine ⟨kept_of_fit hq h hf, fun out hout => ?_⟩
  obtain ⟨before, page, after, he, hb⟩ := brokeOff_of_prepared hout h hf
  refine ⟨before, page, after, he, hb, fun hc there hr hs place hbelow octets hfile => ?_⟩
  refine hb.files_below (fun q hm => ?_) hc hr hs hbelow hfile
  refine ofPage_of_prepared hout _ ?_
  rw [he]
  rcases List.mem_cons.1 hm with rfl | hm
  · exact List.mem_append_right _ List.mem_cons_self
  · exact List.mem_append_left _ hm

/-- a run that makes pages and emits them touches no file before the emission -/
theorem render_eq_error {made : Except Fault PageMap} {package : Path} {below : Text} {options : EmitOptions}
    (h : (Command.render programs made package below options).perform s = (.error f, s')) :
    s' = s ∨ ∃ pages folder, made = .ok pages ∧ Path.generatedFolder package below = .ok folder ∧
      (emit programs options folder pages).perform s = (.error f, s') := by
  unfold Command.render at h
  rcases Act.bind_eq_error.1 h with h | ⟨pages, t, hmade, h⟩
  · exact .inl (Prod.mk.inj h).2.symm
  obtain ⟨hpages, rfl⟩ := Prod.mk.inj hmade
  rcases Act.bind_eq_error.1 h with h | ⟨folder, t, hunder, h⟩
  · exact .inl (Prod.mk.inj h).2.symm
  obtain ⟨hfolder, rfl⟩ := Prod.mk.inj hunder
  exact .inr ⟨pages, folder, hpages, hfolder, h⟩

/-- **A failed emission loses files exactly at an unfit page.** Take any programs, of which those that the formatter
starts leave the files alone, and let an emission fail with anything but an answer of the system. If every prepared page
is fit, or preparing itself failed, every file is as it was. Otherwise the emission broke off at an unfit page: what it
leaves is what clearing the folder and writing the pages before leave, and below a folder that stood there only the
files of these pages remain. A run that makes its pages first either fails so or leaves every file as it was. -/
theorem failed_emission {options : EmitOptions} (hf : f.family ≠ .system) :
    (∀ folder pages, Quiet programs options.formatter pages s →
      (emit programs options folder pages).perform s = (.error f, s') →
        FailedEmission programs options folder pages s f s') ∧
    ∀ made package below, (∀ pages, made = .ok pages → Quiet programs options.formatter pages s) →
      (Command.render programs made package below options).perform s = (.error f, s') →
        s' = s ∨ ∃ pages folder, made = .ok pages ∧ Path.generatedFolder package below = .ok folder ∧
          FailedEmission programs options folder pages s f s' := by
  refine ⟨fun folder pages hq h => failedEmission hq h hf, fun made package below hq h => ?_⟩
  rcases render_eq_error h with hsame | ⟨pages, folder, hmade, hfolder, hemit⟩
  · exact .inl hsame
  · exact .inr ⟨pages, folder, hmade, hfolder, failedEmission (hq pages hmade) hemit hf⟩

/-- a system with the page of an earlier run -/
def earlierRun : Store :=
  (Store.fresh.put (["work", "out"].map Text.ofString) .folder).put (["work", "out", "old.md"].map Text.ofString)
    (.file [111, 108, 100])

/-- a system with one program, which refuses every page -/
def onlyFalse : Formatter.Programs where
  refusal _ words := if words.head? = some ("false" : Octets) then none else some .notFound
  run _ _ store := (⟨1, [], []⟩, store)

/-- a formatter that refuses every page costs no file -/
theorem refused_page_loses_nothing :
    ((emit onlyFalse ⟨true, some "false"⟩ (Path.ofText "out") (PageMap.page "a.md" (.plain "a"))).perform
      earlierRun).2 = earlierRun := by
  have hq : Quiet onlyFalse (some "false") (PageMap.page "a.md" (.plain "a")) earlierRun :=
    fun _ _ _ _ _ _ _ _ => rfl
  have h : (emit onlyFalse ⟨true, some "false"⟩ (Path.ofText "out") (PageMap.page "a.md" (.plain "a"))).perform
      earlierRun = (.error (.formatter "a.md" 1 []), ((emit onlyFalse ⟨true, some "false"⟩ (Path.ofText "out")
        (PageMap.page "a.md" (.plain "a"))).perform earlierRun).2) :=
    Prod.ext rfl rfl
  refine ((failed_emission (by decide)).1 _ _ hq h).kept fun out hout => ?_
  cases congrArg Prod.fst hout

/-- a text without octets is found only after the page of the earlier run has been deleted -/
theorem emission_loses_files :
    ¬ ∀ (programs : Formatter.Programs) (options : EmitOptions) (folder : Path) (pages : PageMap) (s s' : Store)
      (f : Fault), Quiet programs options.formatter pages s →
        (emit programs options folder pages).perform s = (.error f, s') → f.family ≠ .system → s' = s := by
  intro hclaim
  have h : (emit onlyFalse ⟨true, none⟩ (Path.ofText "out") (PageMap.page "a.md" (.plain [0xD800]))).perform earlierRun =
      (.error (.unencodable ⟨0xD800, 0, 1⟩),
        ((emit onlyFalse ⟨true, none⟩ (Path.ofText "out") (PageMap.page "a.md" (.plain [0xD800]))).perform
          earlierRun).2) :=
    Prod.ext rfl rfl
  have hsame := hclaim _ _ _ _ _ _ _ (fun _ hc => by cases hc) h (by decide)
  have hfiles := congrArg Store.files hsame
  revert hfiles
  decide +kernel

end Files

end InterfacePages
