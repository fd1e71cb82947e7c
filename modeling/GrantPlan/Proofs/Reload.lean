import GrantPlan.Proofs.CatalogText
import GrantPlan.Proofs.History
/-!
# Writing a catalog down and reading it again

The grants of a catalog come back from its text as they were, because their objects are spelled
canonically. Owners and default grants are kept under names without quotes, and reading takes
quotes off once more. So a catalog comes back as it was just when none of these names looks quoted
still (`reload_answers_alike_iff`).
-/

namespace GrantPlan

open Std

namespace Catalog

/-! ## What comes back -/

/-- A text is always read, as the catalog that its records build up. -/
theorem ofText_render (catalog : Catalog) :
    ofText catalog.render = .ok (ofDocument catalog.document) := by
  rw [ofText, render, CatalogDocument.ofText_render]
  rfl

theorem superusers_reload (catalog : Catalog) :
    (ofDocument catalog.document).superusers = catalog.superusers := by
  rw [ofDocument_eq]
  exact OrderedSet.ext fun role => OrderedSet.mem_ofList

/-- Canonical spelling is kept by putting names into canonical spelling. -/
theorem grants_reload {catalog : Catalog} (h : ∀ grant ∈ catalog.grants, grant.IsCanonical) :
    (ofDocument catalog.document).grants = catalog.grants := by
  have hrecord : ∀ grant ∈ catalog.grants, GrantRecord.grant ⟨grant.role, grant.kind,
      grant.privilege.object, grant.privilege.verb⟩ = grant := by
    intro grant hgrant
    rw [GrantRecord.grant, h grant hgrant]
  rw [ofDocument_eq]
  refine OrderedSet.ext fun grant => ?_
  simp only [OrderedSet.mem_ofList, document, List.map_map, List.mem_map, Function.comp_apply,
    OrderedSet.mem_toList]
  constructor
  · rintro ⟨grant', hgrant', rfl⟩
    rwa [hrecord grant' hgrant']
  · exact fun hgrant => ⟨grant, hgrant, hrecord grant hgrant⟩

theorem owner?_document (catalog : Catalog) (kind : ObjectKind) (name : ObjectName) :
    catalog.document.owner? kind name = catalog.owner? kind name := by
  rw [owner?, ← OrderedMap.lastValue?_toList, CatalogDocument.owner?_eq_lastValue?]
  simp [document, ObjectRecord.ref, Function.comp_def]

theorem exists_defaultGrants_document_iff {catalog : Catalog} {grant : DefaultGrant} :
    (∃ r ∈ catalog.document.defaultGrants, r.grant = grant) ↔ grant ∈ catalog.defaultGrants := by
  simp [document, DefaultGrantRecord.grant]

/-! ## The same answers -/

/-- Catalogs that no question tells apart. -/
structure AnswersAlike (catalog catalog' : Catalog) : Prop where
  isSuperuser : ∀ role, catalog.isSuperuser role = catalog'.isSuperuser role
  held : ∀ role kind access, catalog.held role kind access = catalog'.held role kind access
  heldDefaults : ∀ role kind access,
    catalog.heldDefaults role kind access = catalog'.heldDefaults role kind access
  owner? : ∀ kind name, catalog.owner? kind name = catalog'.owner? kind name
  objectsIn : ∀ kind schema, catalog.objectsIn kind schema = catalog'.objectsIn kind schema

/-- Whether the names of a catalog have no quotes to take off. Default grants that no access level
shows do not count. -/
structure HasPlainNames (catalog : Catalog) : Prop where
  objects : ∀ entry ∈ catalog.owners.toList, entry.1.unquoted = entry.1
  schemas : ∀ grant ∈ catalog.defaultGrants.toList,
    grant.isManaged = true → grant.unquoted = grant

/-- Owners are the same just when no object's name looks quoted. -/
theorem owner?_reload_iff (catalog : Catalog) :
    (∀ kind name, catalog.owner? kind name = (ofDocument catalog.document).owner? kind name) ↔
      ∀ entry ∈ catalog.owners.toList, entry.1.unquoted = entry.1 := by
  have hrecords := owner?_ofDocument_iff catalog.document
  simp only [owner?_document, eq_comm (b := catalog.owner? _ _)] at hrecords
  exact hrecords.trans List.forall_mem_map

/-- Default grants are the same just when no schema of one that is shown looks quoted. -/
theorem heldDefaults_reload_iff (catalog : Catalog) :
    (∀ role kind access, catalog.heldDefaults role kind access =
        (ofDocument catalog.document).heldDefaults role kind access) ↔
      ∀ grant ∈ catalog.defaultGrants.toList, grant.isManaged = true → grant.unquoted = grant := by
  have hrecords := heldDefaults_ofDocument_iff catalog.document
  simp only [exists_defaultGrants_document_iff] at hrecords
  refine Iff.trans ?_ (hrecords.trans List.forall_mem_map)
  refine forall_congr' fun role => forall_congr' fun kind => forall_congr' fun access => ?_
  have hheld : ∀ p, p ∈ catalog.heldDefaults role kind access ↔
      ⟨role, kind, p⟩ ∈ catalog.defaultGrants ∧ p.verb ∈ kind.verbs access :=
    fun p => mem_heldDefaults_iff
  constructor
  · intro heq p
    rw [← heq, hheld]
  · intro hsame
    refine OrderedSet.ext fun p => ?_
    rw [hheld, hsame]

/-- A catalog that came about in any way is read back from its text, and the catalog that is read
gives the same answers just when there are no quotes to take off. -/
theorem reload_answers_alike_iff {catalog : Catalog} (h : catalog.Reachable) :
    ∃ reloaded, ofText catalog.render = .ok reloaded ∧
      (catalog.AnswersAlike reloaded ↔ catalog.HasPlainNames) := by
  refine ⟨ofDocument catalog.document, ofText_render catalog, ?_, ?_⟩
  · intro halike
    exact ⟨(owner?_reload_iff catalog).1 halike.owner?,
      (heldDefaults_reload_iff catalog).1 halike.heldDefaults⟩
  · intro hplain
    have howner := (owner?_reload_iff catalog).2 hplain.objects
    -- the objects in a schema are listed in the order of the table, so the tables must be the same
    have howners : catalog.owners = (ofDocument catalog.document).owners :=
      OrderedMap.ext_get? fun ref => howner ref.kind ref.name
    exact
      { isSuperuser := fun role => by rw [isSuperuser, isSuperuser, superusers_reload]
        held := fun role kind access => by rw [held, held, grants_reload h.canonical]
        heldDefaults := (heldDefaults_reload_iff catalog).2 hplain.schemas
        owner? := howner
        objectsIn := fun kind schema => by rw [objectsIn, objectsIn, howners] }

/-- The small database after its plan. -/
theorem reload_answers_alike_ledger : (ledgerCatalog.applyAll ledgerPlan).Reachable ∧
    ∃ reloaded, ofText (ledgerCatalog.applyAll ledgerPlan).render = .ok reloaded ∧
      (ledgerCatalog.applyAll ledgerPlan).AnswersAlike reloaded := by
  have hreachable : (ledgerCatalog.applyAll ledgerPlan).Reachable :=
    reachable_ledgerCatalog.carryOut plan_ledger (List.Subset.refl ledgerPlan)
  have hplain : (ledgerCatalog.applyAll ledgerPlan).HasPlainNames :=
    ⟨by decide, by decide⟩
  obtain ⟨reloaded, hread, halike⟩ := reload_answers_alike_iff hreachable
  exact ⟨hreachable, reloaded, hread, halike.2 hplain⟩

/-- A database with a schema that is called by the letter a between two quotes. -/
def quotedSchemaCatalog : Catalog := (∅ : Catalog).addObject .schemas "\"\"\"a\"\"\"" none "etl"

/-- The schema with the quotes has an owner, but it has none once the catalog is read back. -/
theorem not_reload_answers_alike :
    quotedSchemaCatalog.Reachable ∧
    quotedSchemaCatalog.owner? .schemas ⟨"\"a\"", none⟩ = some "etl" ∧
    ∃ reloaded, ofText quotedSchemaCatalog.render = .ok reloaded ∧
      reloaded.owner? .schemas ⟨"\"a\"", none⟩ = none ∧
      ¬ quotedSchemaCatalog.AnswersAlike reloaded := by
  have howner : quotedSchemaCatalog.owner? .schemas ⟨"\"a\"", none⟩ = some "etl" := by decide
  have hlost :
      (ofDocument quotedSchemaCatalog.document).owner? .schemas ⟨"\"a\"", none⟩ = none := by
    decide
  refine ⟨.addObject .empty _ _ _ _, howner, _, ofText_render _, hlost, fun halike => ?_⟩
  have hsame := halike.owner? .schemas ⟨"\"a\"", none⟩
  rw [howner, hlost] at hsame
  cases hsame

end Catalog

end GrantPlan
