import GrantPlan.Proofs.Convergence
import GrantPlan.Proofs.Creation
import Mathlib.Logic.Relation
/-!
# Keeping in line

A catalog is in line with a spec when each role holds, at each level and on each kind, what the spec
wants it to hold (`Spec.InLine`). A plan brings a catalog in line, and creations keep it there: what
targets ask for grows by an object exactly where default privileges of its creator are held.
-/

namespace GrantPlan

variable {spec : Spec} {catalog later : Catalog} {creation : Creation} {statements : List Statement}

/-- Whether the targets of every role that is no superuser can be read, and the role holds what they
ask for and nothing else. -/
def Spec.InLine (spec : Spec) (catalog : Catalog) : Prop :=
  ∀ role config, (role, config) ∈ spec.roles → catalog.isSuperuser role = false →
    ∀ kind access, ∃ wanted,
      Scope.wanted spec.authority catalog ⟨role, kind, access⟩ (config.wantedAt kind access) =
        .ok wanted ∧
      ∀ e, Scope.Covers ⟨role, kind, access⟩ e → (catalog.Holds e ↔ wanted.Asks e)

/-- A catalog is in line when a plan for it changes nothing. -/
theorem Spec.inLine_iff : spec.InLine catalog ↔
    ∃ notes, plan spec catalog = .ok notes ∧ ∀ s ∈ notes, s.isChange = false := by
  constructor
  · intro h
    have hread : ∃ notes, plan spec catalog = .ok notes := by
      rw [exists_plan_iff]
      intro role config hconfig hrole kind access
      obtain ⟨wanted, hwanted, -⟩ := h role config hconfig hrole kind access
      exact ⟨wanted, hwanted⟩
    obtain ⟨notes, hplan⟩ := hread
    refine ⟨notes, hplan, (no_change_iff hplan).2 fun e hmanages => ?_⟩
    obtain ⟨⟨role, kind, access⟩, wanted, hin, hcovers⟩ := hmanages.exists_wantsIn hplan
    obtain ⟨config, hconfig, hrole, hwanted⟩ := id hin
    obtain ⟨wanted', hwanted', hholds⟩ := h role config hconfig hrole kind access
    obtain rfl := Except.ok.inj (hwanted.symm.trans hwanted')
    exact (hholds e hcovers).trans (hin.wants_iff hcovers).symm
  · rintro ⟨notes, hplan, hnotes⟩ role config hconfig hrole kind access
    obtain ⟨wanted, hwanted, hin⟩ := exists_wantsIn hplan hconfig hrole kind access
    refine ⟨wanted, hwanted, fun e hcovers => ?_⟩
    rw [(no_change_iff hplan).1 hnotes e (hin.manages hcovers), hin.wants_iff hcovers]

/-- A plan brings a catalog in line. -/
theorem Spec.inLine_applyAll_plan (hplan : plan spec catalog = .ok statements) :
    spec.InLine (catalog.applyAll statements) := by
  refine Spec.inLine_iff.2 ⟨_, plan_applyAll_of_subset hplan (List.Subset.refl _), fun s hs => ?_⟩
  simp only [List.mem_filter, decide_eq_true_eq, not_and] at hs
  exact Bool.eq_false_iff.2 fun hchange => hs.2 hchange hs.1

/-! ## One creation -/

section

variable {scope : Scope} {config : RoleConfig} {wanted wanted' : Wanted}

/-- Objects listed by their names are known wherever the list can be read. -/
theorem Scope.recorded_of_wanted
    (h : scope.wanted spec.authority catalog (config.wantedAt scope.kind scope.access) = .ok wanted) :
    ∀ item, config.Counts scope.kind scope.access item → item ≠ personalSchemasWord →
      (∀ text, item ≠ text ++ Target.contentsMark) →
      ∃ owner, catalog.owner? scope.kind (ObjectName.ofText item) = some owner := by
  intro item hitem hword hcontents
  obtain ⟨part, hpart⟩ := exists_wanted_iff.1 ⟨wanted, h⟩ item (RoleConfig.mem_wantedAt_iff.2 hitem)
  rw [Target.ofText_named hword hcontents, request_named_eq_ok_iff] at hpart
  obtain ⟨owner, howner, -⟩ := hpart
  exact ⟨owner, howner⟩

/-- Where a scope is in line, its default privileges of a writer of a schema tell whether all of
the schema is asked for. -/
theorem Scope.holds_promise_iff
    (h : scope.wanted spec.authority catalog (config.wantedAt scope.kind scope.access) = .ok wanted)
    (hholds : ∀ e, scope.Covers e → (catalog.Holds e ↔ wanted.Asks e))
    {grantor schema verb : String} (hkind : scope.kind ≠ .schemas) (hverb : verb ∈ scope.verbs)
    (hwriter : grantor ∈ spec.authority.writersOf schema) :
    catalog.Holds (.onFuture ⟨scope.role, scope.kind, ⟨grantor, schema, verb⟩⟩) ↔
      AsksForSchema spec (config.Counts scope.kind scope.access) schema ∧ grantor ≠ scope.role := by
  have hdefaults : scope.kind.hasDefaults = true := ObjectKind.hasDefaults_iff.2 hkind
  rw [hholds _ (covers_onFuture hverb hdefaults)]
  refine (mem_defaults_iff h).trans ?_
  simp only [hdefaults, hwriter, hverb, true_and, and_true]

/-- In a scope that is in line, a creation adds to what is wanted on objects what it adds to what is
held. -/
theorem Scope.holds_create_iff (hallowed : spec.Allows catalog creation)
    (h : scope.wanted spec.authority catalog (config.wantedAt scope.kind scope.access) = .ok wanted)
    (h' : scope.wanted spec.authority (catalog.create creation)
      (config.wantedAt scope.kind scope.access) = .ok wanted')
    (hholds : ∀ e, scope.Covers e → (catalog.Holds e ↔ wanted.Asks e)) {e : Entitlement}
    (hcovers : scope.Covers e) : (catalog.create creation).Holds e ↔ wanted'.Asks e := by
  have hsame := hholds e hcovers
  cases e with
  | onFuture promise =>
    -- default privileges depend on the spec alone
    rw [Catalog.holds_create_onFuture_iff, hsame]
    exact (mem_defaults_iff h).trans (mem_defaults_iff h').symm
  | onObject grant =>
    obtain ⟨role, kind, p⟩ := grant
    obtain ⟨hrole, hkind, hverb, -⟩ := hcovers
    obtain rfl : role = scope.role := hrole
    obtain rfl : kind = scope.kind := hkind
    have hold : catalog.Holds (.onObject ⟨scope.role, scope.kind, p⟩) ↔ _ :=
      hsame.trans ((mem_privileges_iff h).trans (and_iff_right hverb))
    have hnew : wanted'.Asks (.onObject ⟨scope.role, scope.kind, p⟩) ↔ _ :=
      (mem_privileges_iff h').trans (and_iff_right hverb)
    have hpromise := fun hkind => holds_promise_iff h hholds hkind hverb hallowed.writer
    simp only [asksForObject_create_iff hallowed (recorded_of_wanted h)] at hnew
    rw [Catalog.holds_create_onObject_iff, hold, hnew]
    -- promises of a writer of the schema are held where its contents are asked for
    constructor
    · rintro (⟨name, hname, hobject⟩ | ⟨hkind, hobject, hpromised⟩)
      · exact ⟨name, .inl hname, hobject⟩
      · dsimp only at hkind hobject hpromised
        rw [← hkind] at hpromised hobject
        have hasks := (hpromise (hkind ▸ hallowed.kind_ne)).1 hpromised
        exact ⟨creation.name, .inr ⟨hkind, rfl, hasks⟩, hobject⟩
    · rintro ⟨name, hname | ⟨hkind, rfl, hasks⟩, hobject⟩
      · exact .inl ⟨name, hname, hobject⟩
      · have hpromised := (hpromise (hkind ▸ hallowed.kind_ne)).2 hasks
        rw [hkind] at hpromised hobject
        exact .inr ⟨hkind, hobject, hpromised⟩

end

/-- A creation leaves a catalog in line. -/
theorem Spec.InLine.create (h : spec.InLine catalog) (hallowed : spec.Allows catalog creation) :
    spec.InLine (catalog.create creation) := by
  intro role config hconfig hrole kind access
  rw [isSuperuser_congr Catalog.superusers_create] at hrole
  obtain ⟨wanted, hwanted, hholds⟩ := h role config hconfig hrole kind access
  obtain ⟨wanted', hwanted'⟩ := Scope.exists_wanted_create hallowed ⟨wanted, hwanted⟩
  exact ⟨wanted', hwanted', fun e hcovers =>
    Scope.holds_create_iff hallowed hwanted hwanted' hholds hcovers⟩

/-! ## Any number of creations -/

/-- A run of creations leaves a catalog in line. -/
theorem Spec.InLine.creates (h : spec.InLine catalog)
    (hrun : Relation.ReflTransGen spec.Creates catalog later) : spec.InLine later := by
  induction hrun with
  | refl => exact h
  | tail _ hstep ih =>
    cases hstep with
    | create hallowed => exact ih.create hallowed

/-- After a plan, whatever objects are created by those who can create them, planning again finds
nothing to change. -/
theorem plan_after_creations (hplan : plan spec catalog = .ok statements)
    (hrun : Relation.ReflTransGen spec.Creates (catalog.applyAll statements) later) :
    ∃ notes, plan spec later = .ok notes ∧ ∀ s ∈ notes, s.isChange = false :=
  Spec.inLine_iff.1 ((Spec.inLine_applyAll_plan hplan).creates hrun)

/-- A new table in the small database. -/
def ledgerJournal : Creation := ⟨.tables, "finance", "journal", "etl"⟩

/-- A table by the name of the one that was gone. -/
def ledgerArchive : Creation := ⟨.tables, "finance", "archive", "etl"⟩

/-- The small database after its plan and both creations. -/
def ledgerLater : Catalog :=
  ((ledgerCatalog.applyAll ledgerPlan).create ledgerJournal).create ledgerArchive

/-- In the small database the analyst comes to read both new tables, and this is no drift. -/
theorem plan_after_creations_ledger :
    plan ledgerSpec ledgerCatalog = .ok ledgerPlan ∧
    ⟨"finance.\"journal\"", "SELECT"⟩ ∈ ledgerLater.held "analyst" .tables .read ∧
    ⟨"finance.\"archive\"", "SELECT"⟩ ∈ ledgerLater.held "analyst" .tables .read ∧
    ∃ notes, plan ledgerSpec ledgerLater = .ok notes ∧ ∀ s ∈ notes, s.isChange = false := by
  have hwriter : "etl" ∈ ledgerSpec.authority.writersOf "finance" := by decide
  have hjournal : ledgerSpec.Allows (ledgerCatalog.applyAll ledgerPlan) ledgerJournal :=
    ⟨by decide, by decide, by decide, by decide, hwriter⟩
  have harchive : ledgerSpec.Allows ((ledgerCatalog.applyAll ledgerPlan).create ledgerJournal)
      ledgerArchive := ⟨by decide, by decide, by decide, by decide, hwriter⟩
  have hrun : Relation.ReflTransGen ledgerSpec.Creates (ledgerCatalog.applyAll ledgerPlan)
      ledgerLater := .tail (.single (.create hjournal)) (.create harchive)
  exact ⟨plan_ledger, by decide, by decide, plan_after_creations plan_ledger hrun⟩

end GrantPlan
