import GrantPlan.Catalog.Server
import GrantPlan.Proofs.Reload
/-!
# The grants that a catalog stores

A spelling is canonical when it is the canonical spelling of some name (`Grant.isCanonical_iff`), and
then the name tells the spelling (`Grant.IsCanonical.unique`). All grants of a catalog are canonical,
whatever its history, so a catalog stores no grant twice under different spellings, and its text
brings back the grants that it stores (`Catalog.stored_grants_canonical`).

Catalogs made from documents and those loaded from servers have histories too
(`Catalog.reachable_ofDocument`, `CatalogServer.reachable_of_load`).
-/

namespace GrantPlan

/-! ## Canonical spelling tells objects apart -/

namespace Grant

variable {grant grant' : Grant}

/-- A grant is canonical just when its object is spelled the way some name is. -/
theorem isCanonical_iff :
    grant.IsCanonical ↔ ∃ name : ObjectName, grant.privilege.object = name.render grant.kind := by
  constructor
  · exact fun h => ⟨ObjectName.ofText grant.privilege.object, h.symm⟩
  · rintro ⟨name, hobject⟩
    rw [IsCanonical, hobject, ObjectName.canonical_render]

/-- Canonical grants of one role, kind and verb whose objects read alike are one grant. -/
theorem IsCanonical.unique (h : grant.IsCanonical) (h' : grant'.IsCanonical)
    (hrole : grant.role = grant'.role) (hkind : grant.kind = grant'.kind)
    (hverb : grant.privilege.verb = grant'.privilege.verb)
    (hname : ObjectName.ofText grant.privilege.object =
      ObjectName.ofText grant'.privilege.object) : grant = grant' := by
  obtain ⟨role, kind, object, verb⟩ := grant
  obtain ⟨role', kind', object', verb'⟩ := grant'
  obtain rfl : role = role' := hrole
  obtain rfl : kind = kind' := hkind
  obtain rfl : verb = verb' := hverb
  have hobject : object = object' :=
    calc object = (ObjectName.ofText object).render kind := h.symm
      _ = (ObjectName.ofText object').render kind := by rw [hname]
      _ = object' := h'
  rw [hobject]

end Grant

/-! ## Catalogs from documents and servers -/

namespace Catalog

variable {catalog : Catalog}

/-- Recording one thing after the other is a history. -/
theorem Reachable.foldl {α : Type} {record : Catalog → α → Catalog}
    (hrecord : ∀ catalog a, Reachable catalog → Reachable (record catalog a))
    (h : catalog.Reachable) (records : List α) : (records.foldl record catalog).Reachable := by
  induction records generalizing catalog with
  | nil => exact h
  | cons a records ih => exact ih (hrecord catalog a h)

theorem reachable_ofDocument (document : CatalogDocument) : (ofDocument document).Reachable := by
  have hsuperusers := Reachable.empty.foldl (fun _ role h => h.addSuperuser role)
    document.superusers
  have hobjects := hsuperusers.foldl
    (fun _ (r : ObjectRecord) h => h.addObject r.kind r.schema r.name? r.owner) document.objects
  have hgrants := hobjects.foldl
    (fun _ (r : GrantRecord) h => h.addGrant r.role r.kind r.object r.verb) document.grants
  exact hgrants.foldl (fun _ (r : DefaultGrantRecord) h =>
    h.addDefaultGrant r.role r.kind r.grantor r.schema r.verb) document.defaultGrants

end Catalog

/-- Whatever a server reports, the catalog that is loaded from it comes about by recording. -/
theorem CatalogServer.reachable_of_load {server : CatalogServer} {catalog : Catalog}
    (h : server.load.1 = .ok catalog) : catalog.Reachable := by
  unfold load at h
  generalize server.records.run.run [] = result at h
  obtain ⟨document | document, asked⟩ := result
  · cases h
  · obtain rfl := Except.ok.inj h
    exact Catalog.reachable_ofDocument document

/-! ## Stored grants -/

namespace Catalog

variable {catalog : Catalog}

/-- Whatever the history of a catalog, each grant that it stores names its object by the canonical
spelling of some name, and putting this into canonical spelling leaves it as it is. Two grants of one
role, kind and verb name different objects, and the text of the catalog brings back the same
grants. -/
theorem stored_grants_canonical (h : catalog.Reachable) :
    (∀ grant ∈ catalog.grants,
      (∃ name : ObjectName, grant.privilege.object = name.render grant.kind) ∧
      ObjectName.canonical grant.kind grant.privilege.object = grant.privilege.object) ∧
    (∀ grant ∈ catalog.grants, ∀ grant' ∈ catalog.grants, grant.role = grant'.role →
      grant.kind = grant'.kind → grant.privilege.verb = grant'.privilege.verb →
      ObjectName.ofText grant.privilege.object = ObjectName.ofText grant'.privilege.object →
      grant = grant') ∧
    ∃ reloaded, ofText catalog.render = .ok reloaded ∧ reloaded.grants = catalog.grants := by
  refine ⟨fun grant hgrant => ?_, fun grant hgrant grant' hgrant' => ?_, ?_⟩
  · exact ⟨Grant.isCanonical_iff.1 (h.canonical grant hgrant), h.canonical grant hgrant⟩
  · exact (h.canonical grant hgrant).unique (h.canonical grant' hgrant')
  · exact ⟨ofDocument catalog.document, ofText_render catalog, grants_reload h.canonical⟩

/-- The small database after its plan, with a function granted under two spellings. -/
def spelledCatalog : Catalog :=
  (ledgerCatalog.applyAll ledgerPlan).addGrant "etl" .functions "\"Finance\".total(integer)" "EXECUTE"
    |>.addGrant "etl" .functions " \"Finance\" . \"total\"(integer) " "EXECUTE"

/-- The grant of the function under its canonical spelling. -/
def spelledGrant : Grant := ⟨"etl", .functions, ⟨"\"Finance\".\"total\"(integer)", "EXECUTE"⟩⟩

/-- The function is stored once, and comes back from the text. -/
theorem stored_grants_canonical_spelled : spelledCatalog.Reachable ∧
    spelledGrant ∈ spelledCatalog.grants ∧
    ObjectName.canonical .functions spelledGrant.privilege.object =
      spelledGrant.privilege.object ∧
    (∀ grant ∈ spelledCatalog.grants, spelledGrant.role = grant.role →
      spelledGrant.kind = grant.kind → spelledGrant.privilege.verb = grant.privilege.verb →
      ObjectName.ofText spelledGrant.privilege.object = ObjectName.ofText grant.privilege.object →
      spelledGrant = grant) ∧
    ∃ reloaded, ofText spelledCatalog.render = .ok reloaded ∧
      reloaded.grants = spelledCatalog.grants := by
  have hreachable : spelledCatalog.Reachable := by
    have hplanned := reachable_ledgerCatalog.carryOut plan_ledger (List.Subset.refl ledgerPlan)
    exact (hplanned.addGrant _ _ _ _).addGrant _ _ _ _
  have hspelling : ObjectName.canonical .functions " \"Finance\" . \"total\"(integer) " =
      spelledGrant.privilege.object := by decide
  have hgrant : spelledGrant ∈ spelledCatalog.grants :=
    OrderedSet.mem_insert.2 (.inl (by rw [hspelling]; rfl))
  obtain ⟨hcanonical, hunique, hreload⟩ := stored_grants_canonical hreachable
  exact ⟨hreachable, hgrant, (hcanonical spelledGrant hgrant).2, hunique spelledGrant hgrant,
    hreload⟩

/-- A statement that is in no plan may spell its object in another way, and then the same object is
stored twice. -/
example : (((∅ : Catalog).addGrant "etl" .tables "finance.ledger" "SELECT").apply
    (.grant "etl" .tables ⟨"finance.ledger", "SELECT"⟩)).grants.toList =
      [⟨"etl", .tables, ⟨"finance.\"ledger\"", "SELECT"⟩⟩,
        ⟨"etl", .tables, ⟨"finance.ledger", "SELECT"⟩⟩] := by decide

end Catalog

end GrantPlan
