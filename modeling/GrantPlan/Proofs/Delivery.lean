import GrantPlan.Program
import GrantPlan.Proofs.DiskTree
import GrantPlan.Proofs.Settled
import Mathlib.Data.List.DropRight
/-!
# Runs of the program

A run with a catalog file on a tree of files either fails, and then it prints nothing and leaves the
tree as it is, or it has a plan to deliver, and then its exit status tells whether the database is
settled (`Program.run_delivers`). The script that is printed is also what is written into the script
file, when there is an output directory.

`DiskTree.Ends` says how an action of the program ends on a tree; a run is put together from what it
says about its stages.
-/

namespace GrantPlan

/-! ## Stems -/

/-- A stem that names files of one directory: it is not blank, and has no more than one segment. -/
structure IsPlainStem (stem : String) : Prop where
  not_blank : ∃ c ∈ stem.toList, isBlank c = false
  ne_parent : stem ≠ ".."
  slash_notMem : '/' ∉ stem.toList
  backslash_notMem : '\\' ∉ stem.toList

theorem trimBlanks_eq_nil_iff {cs : List Char} :
    trimBlanks cs = [] ↔ ∀ c ∈ cs, isBlank c = true := by
  show (cs.dropWhile isBlank).rdropWhile isBlank = [] ↔ _
  rw [List.rdropWhile_eq_nil_iff]
  constructor
  · intro h c hc
    rw [← List.takeWhile_append_dropWhile (p := isBlank) (l := cs), List.mem_append] at hc
    exact hc.elim (fun hc => List.mem_takeWhile_imp hc) (h c)
  · intro h c hc
    exact h c ((List.dropWhile_sublist isBlank).subset hc)

/-- The stems that do are the plain ones. -/
theorem checkStem_eq_ok_iff {stem : String} : checkStem stem = .ok () ↔ IsPlainStem stem := by
  have hblank : (trimBlanks stem.toList).isEmpty = true ↔
      ¬ ∃ c ∈ stem.toList, isBlank c = false := by
    simp [trimBlanks_eq_nil_iff]
  unfold checkStem
  split
  next h =>
    exact iff_of_false nofun fun hplain => hblank.1 h hplain.not_blank
  next h =>
    split
    next hsegments =>
      refine iff_of_false nofun fun hplain => ?_
      simp [hplain.ne_parent, hplain.slash_notMem, hplain.backslash_notMem] at hsegments
    next hsegments =>
      simp only [Bool.or_eq_true, decide_eq_true_eq, List.contains_iff_mem, not_or] at hsegments
      obtain ⟨⟨hparent, hslash⟩, hbackslash⟩ := hsegments
      exact iff_of_true rfl ⟨not_not.1 (mt hblank.2 h), hparent, hslash, hbackslash⟩

/-- The name of an output file stands for itself. -/
theorem IsPlainStem.isPlainName {stem suffix : String} (h : IsPlainStem stem)
    (hslash : '/' ∉ suffix.toList) (hlength : 2 < suffix.length) :
    DiskTree.IsPlainName (stem ++ suffix) := by
  have hne : ∀ name : String, name.length ≤ 2 → stem ++ suffix ≠ name := by
    rintro name hname rfl
    rw [String.length_append] at hname
    omega
  refine ⟨?_, ?_, hne ".." (by decide)⟩
  · simp [h.slash_notMem, hslash]
  · rw [Path.isIdle, Bool.or_eq_false_iff, decide_eq_false_iff_not, decide_eq_false_iff_not]
    exact ⟨hne "" (by decide), hne "." (by decide)⟩

/-! ## Actions on a tree -/

namespace DiskTree

/-- An action that is run on a tree has a result, and leaves a tree behind. -/
def Ends {ε α : Type} (tree : DiskTree) (action : ExceptT ε (StateM DiskTree) α)
    (result : Except ε α) (after : DiskTree) : Prop :=
  action.run.run tree = (result, after)

section Ends
variable {ε ε' α β : Type} {tree middle after : DiskTree}
  {action : ExceptT ε (StateM DiskTree) α} {next : α → ExceptT ε (StateM DiskTree) β}

theorem ends_mk (tree : DiskTree) (result : Except ε α) :
    tree.Ends (ExceptT.mk (pure result)) result tree := rfl

theorem Ends.bind {a : α} {result : Except ε β} (h : tree.Ends action (.ok a) middle)
    (hnext : middle.Ends (next a) result after) : tree.Ends (action >>= next) result after := by
  unfold Ends at h hnext ⊢
  rw [ExceptT.run_bind, StateT.run_bind, h]
  exact hnext

theorem Ends.bind_error {cause : ε} (h : tree.Ends action (.error cause) after) :
    tree.Ends (action >>= next) (.error cause) after := by
  unfold Ends at h ⊢
  rw [ExceptT.run_bind, StateT.run_bind, h]
  rfl

theorem Ends.adapt {result : Except ε α} (h : tree.Ends action result after) (f : ε → ε') :
    tree.Ends (action.adapt f) (result.mapError f) after := by
  unfold Ends at h ⊢
  show (StateT.run (Except.mapError f <$> action.run) tree) = _
  rw [StateT.run_map, h]
  rfl

theorem ends_concerning {path : String} {step : StateM DiskTree (Except DiskFault α)}
    {result : Except DiskFault α} (h : step.run tree = (result, after)) :
    tree.Ends (Disk.concerning path step) (result.mapError (DiskError.mk path)) after := by
  unfold Ends Disk.concerning
  show (StateT.run (step >>= fun result => pure (result.mapError (DiskError.mk path))) tree) = _
  rw [StateT.run_bind, h]
  rfl

end Ends

/-- A file holds the text of a document. -/
def Holds {ε α : Type} (tree : DiskTree) (ofText : String → Except ε α) (path : String) (a : α) :
    Prop :=
  ∃ text, tree.readText path = .ok text ∧ ofText text = .ok a

theorem Holds.unique {ε α : Type} {tree : DiskTree} {ofText : String → Except ε α} {path : String}
    {a b : α} (h : tree.Holds ofText path a) (h' : tree.Holds ofText path b) : a = b := by
  obtain ⟨text, htext, ha⟩ := h
  obtain ⟨text', htext', hb⟩ := h'
  obtain rfl := Except.ok.inj (htext.symm.trans htext')
  exact Except.ok.inj (ha.symm.trans hb)

theorem ends_readText (tree : DiskTree) (path : String) :
    tree.Ends (Program.readText disk path)
      (((tree.readText path).mapError (DiskError.mk path)).mapError Error.disk) tree :=
  Ends.adapt (ends_concerning (by rfl)) Error.disk

section Reading
variable {ε α : Type} {tree : DiskTree} {ofText : String → Except ε α} {wrap : ε → Error}
  {path : String}

/-- A document is read off a file that holds it. -/
theorem Holds.ends_read {a : α} (h : tree.Holds ofText path a) :
    tree.Ends (Program.readText disk path >>= fun text =>
      ExceptT.mk (pure ((ofText text).mapError wrap))) (.ok a) tree := by
  obtain ⟨text, htext, ha⟩ := h
  have hread := tree.ends_readText path
  rw [htext] at hread
  refine hread.bind ?_
  rw [ha]
  exact ends_mk tree _

/-- Reading fails on a file that holds no document, and changes nothing. -/
theorem exists_ends_read_error (h : ∀ a, ¬ tree.Holds ofText path a) :
    ∃ cause, tree.Ends (Program.readText disk path >>= fun text =>
      ExceptT.mk (pure ((ofText text).mapError wrap))) (.error cause) tree := by
  have hread := tree.ends_readText path
  cases htext : tree.readText path with
  | error fault =>
    rw [htext] at hread
    exact ⟨_, hread.bind_error⟩
  | ok text =>
    rw [htext] at hread
    cases hdocument : ofText text with
    | ok a => exact absurd ⟨text, htext, hdocument⟩ (h a)
    | error e =>
      refine ⟨wrap e, hread.bind ?_⟩
      rw [hdocument]
      exact ends_mk tree _

end Reading

/-! ## Writing -/

theorem ends_writeText {tree after : DiskTree} {path text : String}
    (h : tree.writeText path text = .ok after) :
    tree.Ends (Disk.concerning path (disk.writeText path text)) (.ok ()) after := by
  have hrun : (disk.writeText path text).run tree = (.ok (), after) := by
    unfold disk
    dsimp only
    rw [StateT.run_modifyGet, h]
    rfl
  exact ends_concerning hrun

/-- Files are written one after the other. -/
theorem ends_forM_writeText {tree after : DiskTree} {files : List OutputFile}
    (h : files.foldlM (fun tree file => tree.writeText file.path file.text) tree = .ok after) :
    tree.Ends (files.forM fun file =>
      Disk.concerning file.path (disk.writeText file.path file.text)) (.ok ()) after := by
  induction files generalizing tree with
  | nil =>
    rw [← Except.ok.inj h]
    exact ends_mk tree _
  | cons file files ih =>
    rw [List.foldlM_cons] at h
    obtain ⟨middle, hfile, hfiles⟩ := bind_eq_ok_iff.1 h
    exact (ends_writeText hfile).bind (ih hfiles)

theorem ends_writeFiles {tree made after : DiskTree} {directory : String} {files : List OutputFile}
    (hmade : tree.makeDirectories directory = (.ok (), made))
    (hfiles : files.foldlM (fun tree file => tree.writeText file.path file.text) made =
      .ok after) : tree.Ends (disk.writeFiles directory files) (.ok ()) after := by
  have hrun : (disk.makeDirectories directory).run tree = (.ok (), made) := hmade
  exact (ends_concerning hrun).bind (ends_forM_writeText hfiles)

/-- A tree takes files into a directory when each step of writing them succeeds. -/
def Takes (tree : DiskTree) (directory : String) (files : List OutputFile) : Prop :=
  ∃ made after : DiskTree, tree.makeDirectories directory = (.ok (), made) ∧
    files.foldlM (fun tree file => tree.writeText file.path file.text) made = .ok after

end DiskTree

/-! ## Plans and failures -/

namespace Program

variable {tree after : DiskTree} {options options' : Options} {catalogPath : String}
  {statements : List Statement} {arguments arguments' : List String}

/-- The plan for the spec and the catalog that the files of a run hold. -/
inductive Plans (tree : DiskTree) (options : Options) (catalogPath : String)
    (statements : List Statement) : Prop
  | intro (spec : Spec) (catalog : Catalog) (spec_held : tree.Holds Spec.ofText options.spec spec)
      (catalog_held : tree.Holds Catalog.ofText catalogPath catalog)
      (plan_eq : plan spec catalog = .ok statements)

/-- Why a run has no plan to deliver, or refuses to deliver it. -/
inductive Fails (tree : DiskTree) (options : Options) (catalogPath : String) : Prop
  | noSpec (h : ∀ spec, ¬ tree.Holds Spec.ofText options.spec spec)
  | noCatalog (h : ∀ catalog, ¬ tree.Holds Catalog.ofText catalogPath catalog)
  | noPlan (spec : Spec) (catalog : Catalog) (mistake : PlanError)
      (spec_held : tree.Holds Spec.ofText options.spec spec)
      (catalog_held : tree.Holds Catalog.ofText catalogPath catalog)
      (plan_eq : plan spec catalog = .error mistake)
  | badStem (directory : String) (directory_eq : options.outputDirectory? = some directory)
      (h : ¬ IsPlainStem options.stem)

/-- A run that does not fail has a plan. -/
theorem plans_of_not_fails (h : ¬ Fails tree options catalogPath) :
    ∃ statements, Plans tree options catalogPath statements := by
  obtain ⟨spec, hspec⟩ := not_forall_not.1 (mt Fails.noSpec h)
  obtain ⟨catalog, hcatalog⟩ := not_forall_not.1 (mt Fails.noCatalog h)
  cases hplan : plan spec catalog with
  | ok statements => exact ⟨statements, spec, catalog, hspec, hcatalog, hplan⟩
  | error mistake => exact absurd (.noPlan spec catalog mistake hspec hcatalog hplan) h

/-- Once there is a plan, all that is left is to deliver it. -/
theorem Plans.ends_perform {result : Except Error (List Statement × String)}
    (h : Plans tree options catalogPath statements) (hsource : options.catalog = .file catalogPath)
    (hdeliver : tree.Ends
      (match options.outputDirectory? with
        | some directory => do
          writePlan DiskTree.disk directory options.stem statements
          return (statements, "")
        | none => return (statements, scriptFile statements)) result after) :
    tree.Ends (perform DiskTree.disk options) result after := by
  obtain ⟨spec, catalog, hspec, hcatalog, hplan⟩ := h
  unfold perform
  refine hspec.ends_read.bind ?_
  rw [hsource]
  refine hcatalog.ends_read.bind ?_
  rw [hplan]
  exact (tree.ends_mk _).bind hdeliver

theorem Plans.ends_perform_none (h : Plans tree options catalogPath statements)
    (hsource : options.catalog = .file catalogPath) (hnone : options.outputDirectory? = none) :
    tree.Ends (perform DiskTree.disk options) (.ok (statements, scriptFile statements)) tree := by
  refine h.ends_perform hsource ?_
  rw [hnone]
  exact tree.ends_mk _

theorem Plans.ends_perform_some {directory : String}
    (h : Plans tree options catalogPath statements) (hsource : options.catalog = .file catalogPath)
    (hdirectory : options.outputDirectory? = some directory) (hstem : IsPlainStem options.stem)
    (hfiles : tree.Ends
      (DiskTree.disk.writeFiles directory (outputFiles directory options.stem statements)) (.ok ())
        after) :
    tree.Ends (perform DiskTree.disk options) (.ok (statements, "")) after := by
  refine h.ends_perform hsource ?_
  rw [hdirectory]
  have hwrites : tree.Ends (writePlan DiskTree.disk directory options.stem statements) (.ok ())
      after := by
    unfold writePlan
    rw [checkStem_eq_ok_iff.2 hstem]
    exact (tree.ends_mk _).bind (hfiles.adapt Error.disk)
  exact hwrites.bind (after.ends_mk _)

/-- A stem that is not plain is refused before anything is written. -/
theorem Plans.exists_ends_perform_error {directory : String}
    (h : Plans tree options catalogPath statements) (hsource : options.catalog = .file catalogPath)
    (hdirectory : options.outputDirectory? = some directory) (hstem : ¬ IsPlainStem options.stem) :
    ∃ cause, tree.Ends (perform DiskTree.disk options) (.error cause) tree := by
  cases hcheck : checkStem options.stem with
  | ok => exact absurd (checkStem_eq_ok_iff.1 hcheck) hstem
  | error cause =>
    refine ⟨.invalidStem cause, h.ends_perform hsource ?_⟩
    rw [hdirectory]
    refine DiskTree.Ends.bind_error ?_
    unfold writePlan
    rw [hcheck]
    exact (tree.ends_mk _).bind_error

/-- A run that fails leaves the tree as it is. -/
theorem Fails.exists_ends_perform_error (h : Fails tree options catalogPath)
    (hsource : options.catalog = .file catalogPath) :
    ∃ cause, tree.Ends (perform DiskTree.disk options) (.error cause) tree := by
  -- the first stage that fails is the one that ends the run
  by_cases hspec : ∃ spec, tree.Holds Spec.ofText options.spec spec
  swap
  · obtain ⟨cause, hread⟩ := DiskTree.exists_ends_read_error (not_exists.1 hspec)
    exact ⟨cause, hread.bind_error⟩
  obtain ⟨spec, hspec⟩ := hspec
  by_cases hcatalog : ∃ catalog, tree.Holds Catalog.ofText catalogPath catalog
  swap
  · obtain ⟨cause, hread⟩ := DiskTree.exists_ends_read_error (not_exists.1 hcatalog)
    refine ⟨cause, hspec.ends_read.bind ?_⟩
    rw [hsource]
    exact hread.bind_error
  obtain ⟨catalog, hcatalog⟩ := hcatalog
  cases hplan : plan spec catalog with
  | error mistake =>
    refine ⟨.plan mistake, hspec.ends_read.bind ?_⟩
    rw [hsource]
    refine hcatalog.ends_read.bind ?_
    rw [hplan]
    exact (tree.ends_mk _).bind_error
  | ok statements =>
    have hplans : Plans tree options catalogPath statements :=
      ⟨spec, catalog, hspec, hcatalog, hplan⟩
    cases h with
    | noSpec h => exact absurd hspec (h spec)
    | noCatalog h => exact absurd hcatalog (h catalog)
    | noPlan spec' catalog' mistake hspec' hcatalog' hplan' =>
      obtain rfl := hspec.unique hspec'
      obtain rfl := hcatalog.unique hcatalog'
      cases hplan.symm.trans hplan'
    | badStem directory hdirectory hstem =>
      exact hplans.exists_ends_perform_error hsource hdirectory hstem

/-- What a run on a tree comes to, by what becomes of its plan. -/
theorem run_eq {result : Except Error (List Statement × String)}
    (hread : CommandLine.read arguments = .ok options)
    (h : tree.Ends (perform DiskTree.disk options) result after) :
    (run DiskTree.disk arguments).run tree =
      (match result with
        | .ok (statements, printed) => .planned statements printed
        | .error cause => .failed cause, after) := by
  unfold run
  rw [hread]
  dsimp only
  rw [StateT.run_bind, h]
  cases result <;> rfl

theorem exitStatus_planned_ne (statements : List Statement) (printed : String) :
    (Outcome.planned statements printed).exitStatus ≠ 2 := by
  rw [Outcome.exitStatus]
  split <;> decide

/-- The exit status of a run with a plan tells whether the database is settled. -/
theorem exitStatus_planned {spec : Spec} {catalog : Catalog}
    (hplan : plan spec catalog = .ok statements) (printed : String) :
    ((Outcome.planned statements printed).exitStatus = 0 ↔ spec.IsSettled catalog) ∧
    ((Outcome.planned statements printed).exitStatus = 1 ↔
      ∃ scope wanted, spec.WantsIn catalog scope wanted ∧ ¬ scope.IsSettled catalog wanted) := by
  rw [Spec.isSettled_iff hplan, ← exists_change_iff hplan]
  simp only [Outcome.exitStatus, ← List.any_eq_true]
  cases statements.any (·.isChange) <;> simp

/-- A run whose plan is printed leaves the tree as it is. -/
theorem Plans.run_none (h : Plans tree options catalogPath statements)
    (hread : CommandLine.read arguments = .ok options)
    (hsource : options.catalog = .file catalogPath) (hnone : options.outputDirectory? = none) :
    (run DiskTree.disk arguments).run tree =
      (.planned statements (scriptFile statements), tree) :=
  run_eq hread (h.ends_perform_none hsource hnone)

/-- Where a run writes its plan, the script is found in its file. -/
theorem Plans.exists_run_some {directory : String}
    (h : Plans tree options catalogPath statements) (hread : CommandLine.read arguments = .ok options)
    (hsource : options.catalog = .file catalogPath)
    (hdirectory : options.outputDirectory? = some directory) (hstem : IsPlainStem options.stem)
    (htakes : tree.Takes directory (outputFiles directory options.stem statements)) :
    ∃ after, (run DiskTree.disk arguments).run tree = (.planned statements "", after) ∧
      after.HasFile (Path.join directory (options.stem ++ ".sql")) (scriptFile statements) := by
  obtain ⟨made, after, hmade, hfiles⟩ := htakes
  have hends := h.ends_perform_some hsource hdirectory hstem (DiskTree.ends_writeFiles hmade hfiles)
  refine ⟨after, run_eq hread hends, ?_⟩
  -- the script is written first, and the report after it
  rw [outputFiles, List.foldlM_cons] at hfiles
  obtain ⟨middle, hscript, hfiles⟩ := bind_eq_ok_iff.1 hfiles
  rw [List.foldlM_cons] at hfiles
  obtain ⟨_, hreport, hfiles⟩ := bind_eq_ok_iff.1 hfiles
  obtain rfl := Except.ok.inj hfiles
  have hne : options.stem ++ ".sql" ≠ options.stem ++ "_report.md" := by
    simp
  exact DiskTree.hasFile_of_writeText (hstem.isPlainName (by decide) (by decide))
    (hstem.isPlainName (by decide) (by decide)) hne hscript hreport

/-- A run that does not fail delivers its plan. -/
theorem Plans.exists_planned {outcome : Outcome} (h : Plans tree options catalogPath statements)
    (hfails : ¬ Fails tree options catalogPath) (hread : CommandLine.read arguments = .ok options)
    (hsource : options.catalog = .file catalogPath)
    (hwrites : ∀ directory, options.outputDirectory? = some directory → IsPlainStem options.stem →
      tree.Takes directory (outputFiles directory options.stem statements))
    (hrun : (run DiskTree.disk arguments).run tree = (outcome, after)) :
    ∃ printed, outcome = .planned statements printed ∧
      ∀ directory, options.outputDirectory? = some directory →
        after.HasFile (Path.join directory (options.stem ++ ".sql")) (scriptFile statements) := by
  cases hdirectory : options.outputDirectory? with
  | none =>
    obtain ⟨rfl, -⟩ := Prod.mk.inj (hrun.symm.trans (h.run_none hread hsource hdirectory))
    exact ⟨_, rfl, nofun⟩
  | some directory =>
    have hstem : IsPlainStem options.stem := not_not.1 (mt (Fails.badStem _ hdirectory) hfails)
    obtain ⟨after', hrun', hscript⟩ := h.exists_run_some hread hsource hdirectory hstem
      (hwrites directory hdirectory hstem)
    obtain ⟨rfl, rfl⟩ := Prod.mk.inj (hrun.symm.trans hrun')
    refine ⟨_, rfl, fun directory' heq => ?_⟩
    obtain rfl := Option.some.inj heq
    exact hscript

/-- How a run with a catalog file ends, provided that its output files can be written.

It fails without a trace, or its exit status tells whether the database is settled. The text that
is printed without an output directory is what the script file holds with one. -/
theorem run_delivers {outcome : Outcome} (hread : CommandLine.read arguments = .ok options)
    (hsource : options.catalog = .file catalogPath)
    (hwrites : ∀ statements directory, Plans tree options catalogPath statements →
      options.outputDirectory? = some directory → IsPlainStem options.stem →
        tree.Takes directory (outputFiles directory options.stem statements))
    (hrun : (run DiskTree.disk arguments).run tree = (outcome, after)) :
    (outcome.exitStatus = 2 ↔ Fails tree options catalogPath) ∧
    (Fails tree options catalogPath → outcome.printed = "" ∧ after = tree) ∧
    (¬ Fails tree options catalogPath → ∃ spec catalog,
      tree.Holds Spec.ofText options.spec spec ∧ tree.Holds Catalog.ofText catalogPath catalog ∧
      (outcome.exitStatus = 0 ↔ spec.IsSettled catalog) ∧
      (outcome.exitStatus = 1 ↔
        ∃ scope wanted, spec.WantsIn catalog scope wanted ∧ ¬ scope.IsSettled catalog wanted) ∧
      ∀ directory, options.outputDirectory? = some directory →
        ∀ arguments' options', CommandLine.read arguments' = .ok options' →
          options'.spec = options.spec → options'.catalog = options.catalog →
          options'.outputDirectory? = none →
          after.HasFile (Path.join directory (options.stem ++ ".sql"))
            ((run DiskTree.disk arguments').run tree).1.printed) := by
  by_cases hfails : Fails tree options catalogPath
  · obtain ⟨cause, hends⟩ := hfails.exists_ends_perform_error hsource
    obtain ⟨rfl, rfl⟩ := Prod.mk.inj (hrun.symm.trans (run_eq hread hends))
    exact ⟨iff_of_true rfl hfails, fun _ => ⟨rfl, rfl⟩, fun h => absurd hfails h⟩
  · obtain ⟨statements, hplans⟩ := plans_of_not_fails hfails
    obtain ⟨printed, rfl, hscript⟩ := hplans.exists_planned hfails hread hsource
      (fun directory => hwrites statements directory hplans) hrun
    have hnot := exitStatus_planned_ne statements printed
    refine ⟨iff_of_false hnot hfails, fun h => absurd h hfails, fun _ => ?_⟩
    obtain ⟨spec, catalog, hspec, hcatalog, hplan⟩ := hplans
    obtain ⟨hzero, hone⟩ := exitStatus_planned hplan printed
    refine ⟨spec, catalog, hspec, hcatalog, hzero, hone, ?_⟩
    intro directory hdirectory arguments' options' hread' hspec' hcatalog' hnone
    -- the other run has the same plan
    have hplans' : Plans tree options' catalogPath statements :=
      ⟨spec, catalog, hspec' ▸ hspec, hcatalog, hplan⟩
    rw [hplans'.run_none hread' (hcatalog'.trans hsource) hnone]
    exact hscript directory hdirectory

/-- A tree with the spec of a schema `lab` that belongs to an intern and is to be used by an
analyst, and with a catalog in which the analyst holds nothing. -/
def labTree : DiskTree :=
  let spec := "intern:\n  owns:\n    schemas: [lab]\n" ++
    "analyst:\n  privileges:\n    schemas:\n      read: [lab]\n"
  let catalog := "\x7b\"objects\": [\x7b\"kind\": \"schemas\", \"schema\": \"lab\", " ++
    "\"owner\": \"intern\"\x7d]\x7d"
  DiskTree.empty.put ["work", "spec.yml"] (.file spec.toUTF8)
    |>.put ["work", "catalog.json"] (.file catalog.toUTF8)

/-- The arguments that name the files of this tree. -/
def labArguments : List String := ["spec.yml", "--snapshot", "catalog.json"]

/-- This tree takes the files of every plan. -/
theorem labTree_takes (statements : List Statement) :
    labTree.Takes "out" (outputFiles "out" "privileges" statements) := by
  let made := labTree.put ["work", "out"] .directory
  let middle := made.put ["work", "out", "privileges.sql"] (.file (scriptFile statements).toUTF8)
  let after := middle.put ["work", "out", "privileges_report.md"]
    (.file (report statements).toUTF8)
  have hmade : labTree.makeDirectories "out" = (.ok (), made) := by rfl
  have hscript : made.writeText "out/privileges.sql" (scriptFile statements) = .ok middle := by rfl
  have hreport : middle.writeText "out/privileges_report.md" (report statements) = .ok after := by
    rfl
  have hfiles : outputFiles "out" "privileges" statements =
      [⟨"out/privileges.sql", scriptFile statements⟩,
        ⟨"out/privileges_report.md", report statements⟩] := by
    rfl
  refine ⟨made, after, hmade, ?_⟩
  rw [hfiles]
  exact bind_eq_ok_iff.2 ⟨middle, hscript, bind_eq_ok_iff.2 ⟨after, hreport, rfl⟩⟩

theorem run_delivers_lab : ∃ outcome after,
    (run DiskTree.disk (labArguments ++ ["--output-dir", "out"])).run labTree = (outcome, after) ∧
      outcome.exitStatus = 1 ∧
      after.HasFile "out/privileges.sql" "GRANT USAGE ON SCHEMA lab TO \"analyst\";\n" := by
  let options : Options := ⟨"spec.yml", .file "catalog.json", some "out", "privileges", false⟩
  have hread : CommandLine.read (labArguments ++ ["--output-dir", "out"]) = .ok options := by
    decide +kernel
  have hwrites : ∀ statements directory, Plans labTree options "catalog.json" statements →
      options.outputDirectory? = some directory → IsPlainStem options.stem →
        labTree.Takes directory (outputFiles directory options.stem statements) := by
    rintro statements directory - hdirectory -
    obtain rfl := Option.some.inj hdirectory
    exact labTree_takes statements
  have hstatus : ((run DiskTree.disk (labArguments ++ ["--output-dir", "out"])).run
      labTree).1.exitStatus = 1 := by
    decide +kernel
  have hprinted : ((run DiskTree.disk labArguments).run labTree).1.printed =
      "GRANT USAGE ON SCHEMA lab TO \"analyst\";\n" := by
    decide +kernel
  obtain ⟨hfails, -, hdelivers⟩ := run_delivers hread rfl hwrites (Prod.eta _).symm
  have hnot : ¬ Fails labTree options "catalog.json" := by
    rw [← hfails, hstatus]
    decide
  obtain ⟨spec, catalog, -, -, -, -, hscript⟩ := hdelivers hnot
  refine ⟨_, _, (Prod.eta _).symm, hstatus, ?_⟩
  rw [← hprinted]
  exact hscript "out" rfl labArguments ⟨"spec.yml", .file "catalog.json", none, "privileges", false⟩
    (by decide +kernel) rfl rfl rfl

end Program

end GrantPlan
