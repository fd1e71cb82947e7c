import GrantPlan.Proofs.Plan
import GrantPlan.Proofs.Recording
import GrantPlan.Proofs.Request
import GrantPlan.Proofs.Spelling
/-!
# How catalogs come about

A catalog is built up by recording, read from a document, or left behind by plans
(`Catalog.Reachable`). Grants enter it in three ways: `Catalog.addGrant` and documents spell their
objects canonically, and a plan takes them over as the spec wants them, which is canonical too. So
the objects of all grants are spelled canonically, whatever the history (`Reachable.canonical`).
-/

namespace GrantPlan

namespace Catalog

/-- Catalogs that come about by recording, reading and carrying out. Of the plans, any part may be
carried out, in any order, and on any catalog. -/
inductive Reachable : Catalog → Prop
  | empty : Reachable ∅
  | addSuperuser {catalog : Catalog} (h : Reachable catalog) (role : String) :
      Reachable (catalog.addSuperuser role)
  | addObject {catalog : Catalog} (h : Reachable catalog) (kind : ObjectKind) (schema : String)
      (object? : Option String) (owner : String) :
      Reachable (catalog.addObject kind schema object? owner)
  | addGrant {catalog : Catalog} (h : Reachable catalog) (role : String) (kind : ObjectKind)
      (object verb : String) : Reachable (catalog.addGrant role kind object verb)
  | addDefaultGrant {catalog : Catalog} (h : Reachable catalog) (role : String) (kind : ObjectKind)
      (grantor schema verb : String) :
      Reachable (catalog.addDefaultGrant role kind grantor schema verb)
  | read {catalog : Catalog} {text : String} (h : ofText text = .ok catalog) : Reachable catalog
  | carryOut {catalog planned : Catalog} {spec : Spec} {statements done : List Statement}
      (h : Reachable catalog) (hplan : plan spec planned = .ok statements)
      (hdone : done ⊆ statements) : Reachable (catalog.applyAll done)

/-- The small database is recorded entry by entry. -/
theorem reachable_ledgerCatalog : ledgerCatalog.Reachable := by
  unfold ledgerCatalog
  apply Reachable.addDefaultGrant
  apply Reachable.addGrant
  apply Reachable.addGrant
  apply Reachable.addObject
  apply Reachable.addObject
  apply Reachable.addSuperuser
  exact .empty

end Catalog

/-! ## Canonical grants -/

/-- A grant whose object has its canonical spelling. -/
def Grant.IsCanonical (grant : Grant) : Prop :=
  ObjectName.canonical grant.kind grant.privilege.object = grant.privilege.object

theorem ObjectName.canonical_canonical (kind : ObjectKind) (text : String) :
    canonical kind (canonical kind text) = canonical kind text :=
  canonical_render kind (ofText text)

/-- What a spec wants, it names canonically. -/
theorem Spec.Wants.isCanonical {spec : Spec} {catalog : Catalog} {grant : Grant}
    (h : spec.Wants catalog (.onObject grant)) : grant.IsCanonical := by
  obtain ⟨⟨role, kind, access⟩, wanted, ⟨config, -, -, hwanted⟩, hcovers, hasks⟩ := h
  obtain ⟨-, name, -, hobject⟩ := (Scope.mem_privileges_iff hwanted).1 hasks
  obtain rfl : grant.kind = kind := hcovers.kind_eq
  rw [Grant.IsCanonical, hobject, ObjectName.canonical_render]

namespace Catalog

variable {catalog : Catalog}

/-- A run of statements adds no entitlement but those that it awards. -/
theorem holds_of_holds_applyAll {statements : List Statement} {e : Entitlement}
    (h : (catalog.applyAll statements).Holds e) : e.award ∈ statements ∨ catalog.Holds e := by
  by_cases haward : e.award ∈ statements
  · exact .inl haward
  · exact .inr ((holds_applyAll_of_not_award haward).1 h).1

theorem exists_document_of_ofText {text : String} (h : ofText text = .ok catalog) :
    ∃ document, catalog = ofDocument document := by
  rw [ofText] at h
  cases hdocument : CatalogDocument.ofText text with
  | error e =>
    rw [hdocument] at h
    cases h
  | ok document =>
    rw [hdocument] at h
    exact ⟨document, (Except.ok.inj h).symm⟩

/-- Grants are canonical whatever has happened to a catalog. -/
theorem Reachable.canonical (h : catalog.Reachable) :
    ∀ grant ∈ catalog.grants, grant.IsCanonical := by
  induction h with
  | empty => exact fun grant hgrant => absurd hgrant (OrderedSet.not_mem_empty grant)
  | addSuperuser _ _ ih => exact ih
  | addObject _ _ _ _ _ ih => exact ih
  | addGrant _ role kind object verb ih =>
    intro grant hgrant
    rcases OrderedSet.mem_insert.1 hgrant with rfl | hgrant
    · exact ObjectName.canonical_canonical kind object
    · exact ih grant hgrant
  | addDefaultGrant _ _ _ _ _ _ ih => exact ih
  | read hread =>
    obtain ⟨document, rfl⟩ := exists_document_of_ofText hread
    rw [ofDocument_eq]
    intro grant hgrant
    obtain ⟨r, -, rfl⟩ := List.mem_map.1 (OrderedSet.mem_ofList.1 hgrant)
    exact ObjectName.canonical_canonical r.kind r.object
  | carryOut _ hplan hdone ih =>
    intro grant hgrant
    rcases holds_of_holds_applyAll (e := .onObject grant) hgrant with haward | hheld
    · exact ((award_mem_plan_iff hplan).1 (hdone haward)).1.isCanonical
    · exact ih grant hheld

end Catalog

end GrantPlan
