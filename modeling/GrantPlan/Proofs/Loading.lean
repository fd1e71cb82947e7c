import GrantPlan.Catalog.Server
import GrantPlan.Proofs.CatalogText
import GrantPlan.Proofs.Recording
import GrantPlan.Proofs.Spelling
/-!
# Loading a catalog from a server

A server that reports objects of known kinds is asked four queries, one after the other, and its
answers become a catalog (`CatalogReport.load_server`).

A server sends names without quotes. A grant is kept under the canonical spelling of the name that
the server sent, whatever the name is made of. Owners and default grants go the way of names that
may be quoted, and are found under the names of the server just when there is nothing in them to
take off (`load_under_names_iff`).
-/

namespace GrantPlan

namespace CatalogServer

/-! ## Sessions without a fault -/

/-- Whether a session ends with a result after some queries, whatever was asked before. -/
def Session.Yields {α : Type} (session : Session α) (x : α) (queries : List CatalogQuery) : Prop :=
  ∀ asked, session.run.run asked = (.ok x, asked ++ queries)

variable {α β ρ : Type}

theorem Session.yields_pure (x : α) : Yields (pure x) x [] := by
  intro asked
  rw [List.append_nil]
  rfl

theorem Session.Yields.bind {session : Session α} {next : α → Session β} {x : α} {y : β}
    {queries later : List CatalogQuery} (h : session.Yields x queries)
    (hnext : (next x).Yields y later) : Yields (session >>= next) y (queries ++ later) := by
  intro asked
  have hrun := hnext (asked ++ queries)
  rw [List.append_assoc] at hrun
  rw [ExceptT.run_bind, StateT.run_bind, h asked]
  exact hrun

theorem Session.yields_mapM {xs : List α} {f : α → Session β} {g : α → β}
    (h : ∀ x ∈ xs, (f x).Yields (g x) []) : Yields (xs.mapM f) (xs.map g) [] := by
  induction xs with
  | nil => exact yields_pure []
  | cons x xs ih =>
    obtain ⟨hx, hxs⟩ := List.forall_mem_cons.1 h
    rw [List.mapM_cons]
    exact hx.bind ((ih hxs).bind (yields_pure _))

/-- A query whose rows are all read yields what is read of them. -/
theorem yields_ask {read? : ρ → Option α} {row : β → ρ} {record : β → α}
    (h : ∀ x, read? (row x) = some (record x)) (query : CatalogQuery) (xs : List β) :
    Session.Yields (ask query (.ok (xs.map row)) read?) (xs.map record) [query] := by
  have hrows : (xs.map row).mapM read? = some (xs.map record) := by
    induction xs with
    | nil => rfl
    | cons x xs ih => simp [h, ih]
  have hask : ask query (.ok (xs.map row)) read? =
      (do modify (· ++ [query]); return xs.map record : Session (List α)) := by
    simp only [ask, hrows]
  rw [hask]
  intro asked
  rfl

/-- A query about objects of known kinds yields a record for each row. -/
theorem yields_askRecords {read? : ρ → Option (Labelled α)} {row : β → ρ} {kind : β → ObjectKind}
    {toRecord : β → ObjectKind → α}
    (h : ∀ x, read? (row x) = some ⟨(kind x).name, toRecord x⟩) (query : CatalogQuery)
    (xs : List β) :
    Session.Yields (askRecords query (.ok (xs.map row)) read?) (xs.map fun x => toRecord x (kind x))
      [query] := by
  refine (yields_ask h query xs).bind ?_
  rw [List.mapM_map]
  refine Session.yields_mapM fun x _ => ?_
  have hrecord : record ⟨(kind x).name, toRecord x⟩ = .ok (toRecord x (kind x)) := by
    rw [record, ObjectKind.ofName?_name]
  intro asked
  rw [Function.comp_apply, hrecord, List.append_nil]
  rfl

end CatalogServer

/-! ## Reports -/

/-- What a server reports of a privilege that a role holds on an object. -/
structure ReportedGrant where
  role : String
  kind : ObjectKind
  name : ObjectName
  verb : String
deriving DecidableEq, Repr

/-- What a server reports, about objects of known kinds. -/
structure CatalogReport where
  superusers : List String
  objects : List ObjectRecord
  grants : List ReportedGrant
  defaultGrants : List DefaultGrantRecord

/-- The row that reports an object. -/
def ObjectRecord.row (r : ObjectRecord) : ObjectRow :=
  ⟨some r.kind.name, some r.schema, r.name?, some r.owner⟩

/-- The row that reports a grant. -/
def ReportedGrant.row (r : ReportedGrant) : GrantRow :=
  ⟨some r.kind.name, some r.name.schema, r.name.object?, some r.role, some r.verb⟩

/-- The row that reports a default grant. -/
def DefaultGrantRecord.row (r : DefaultGrantRecord) : DefaultGrantRow :=
  ⟨some r.kind.name, some r.grantor, some r.schema, some r.role, some r.verb⟩

/-- The record of a grant that is reported, which names the object by its canonical spelling. -/
def ReportedGrant.record (r : ReportedGrant) : GrantRecord :=
  ⟨r.role, r.kind, r.name.render r.kind, r.verb⟩

namespace CatalogReport

/-- A server that answers with the rows of a report. -/
def server (report : CatalogReport) : CatalogServer where
  connection := .ok ()
  superusers := .ok (report.superusers.map some)
  objects := .ok (report.objects.map ObjectRecord.row)
  grants := .ok (report.grants.map ReportedGrant.row)
  defaultGrants := .ok (report.defaultGrants.map DefaultGrantRecord.row)

/-- The records of a report. -/
def document (report : CatalogReport) : CatalogDocument :=
  ⟨report.superusers, report.objects, report.grants.map ReportedGrant.record, report.defaultGrants⟩

open CatalogServer in
/-- All four queries are asked, in order, and each row leaves its record. -/
theorem load_server (report : CatalogReport) :
    report.server.load = (.ok (Catalog.ofDocument report.document),
      [.superusers, .objects, .grants, .defaultGrants]) := by
  have hobject : ∀ r : ObjectRecord,
      readObject? r.row = some ⟨r.kind.name, fun kind => { r with kind := kind }⟩ := fun _ => rfl
  have hgrant : ∀ r : ReportedGrant, readGrant? r.row =
      some ⟨r.kind.name, fun kind => { r with kind := kind }.record⟩ := fun _ => rfl
  have hdefaultGrant : ∀ r : DefaultGrantRecord,
      readDefaultGrant? r.row = some ⟨r.kind.name, fun kind => { r with kind := kind }⟩ :=
    fun _ => rfl
  have hsuperusers := @yields_ask _ _ _ id some id (fun _ => rfl) .superusers report.superusers
  have hobjects := yields_askRecords hobject .objects report.objects
  have hgrants := yields_askRecords hgrant .grants report.grants
  have hdefaultGrants := yields_askRecords hdefaultGrant .defaultGrants report.defaultGrants
  rw [List.map_id'] at hobjects hdefaultGrants
  rw [List.map_id] at hsuperusers
  have hrecords : Session.Yields report.server.records report.document
      [.superusers, .objects, .grants, .defaultGrants] :=
    hsuperusers.bind (hobjects.bind (hgrants.bind (hdefaultGrants.bind (Session.yields_pure _))))
  rw [load, hrecords []]
  rfl

/-- The record of a grant leaves the canonical spelling that it holds. -/
theorem grant_record (r : ReportedGrant) :
    r.record.grant = ⟨r.role, r.kind, ⟨r.name.render r.kind, r.verb⟩⟩ := by
  rw [ReportedGrant.record, GrantRecord.grant, ObjectName.canonical_render]

/-- A report is loaded as a whole, and each grant is found under the name that was reported. Owners
are found under the names that were reported just when none of these looks quoted, and so are
default grants. -/
theorem load_under_names_iff (report : CatalogReport) : ∃ catalog,
    report.server.load = (.ok catalog, [.superusers, .objects, .grants, .defaultGrants]) ∧
    (∀ role kind access p, p ∈ catalog.held role kind access ↔
      (∃ r ∈ report.grants, r.role = role ∧ r.kind = kind ∧
        p = ⟨r.name.render kind, r.verb⟩) ∧ p.verb ∈ kind.verbs access) ∧
    ((∀ kind name, catalog.owner? kind name = report.document.owner? kind name) ↔
      ∀ r ∈ report.objects, r.ref.unquoted = r.ref) ∧
    ((∀ role kind access p, p ∈ catalog.heldDefaults role kind access ↔
        (∃ r ∈ report.defaultGrants, r.grant = ⟨role, kind, p⟩) ∧ p.verb ∈ kind.verbs access) ↔
      ∀ r ∈ report.defaultGrants, r.grant.isManaged = true → r.grant.unquoted = r.grant) := by
  refine ⟨Catalog.ofDocument report.document, report.load_server, ?_,
    Catalog.owner?_ofDocument_iff report.document,
    Catalog.heldDefaults_ofDocument_iff report.document⟩
  intro role kind access p
  rw [Catalog.mem_held_ofDocument]
  simp only [document, List.mem_map, exists_exists_and_eq_and]
  refine and_congr_left fun _ => exists_congr fun r => and_congr_right fun _ => ?_
  rw [grant_record, Grant.mk.injEq]
  constructor
  · rintro ⟨hrole, rfl, hprivilege⟩
    exact ⟨hrole, rfl, hprivilege.symm⟩
  · rintro ⟨hrole, rfl, hprivilege⟩
    exact ⟨hrole, rfl, hprivilege.symm⟩

/-- A server with one schema, whose name is the letter a between two quotes, and a role that may use
it. -/
def quotedSchema : CatalogReport where
  superusers := []
  objects := [⟨.schemas, "\"a\"", none, "etl"⟩]
  grants := [⟨"analyst", .schemas, ⟨"\"a\"", none⟩, "USAGE"⟩]
  defaultGrants := []

/-- The grant on the schema is found under its name, and its owner is not. -/
theorem not_load_under_names :
    quotedSchema.document.owner? .schemas ⟨"\"a\"", none⟩ = some "etl" ∧
    ∃ catalog, quotedSchema.server.load =
        (.ok catalog, [.superusers, .objects, .grants, .defaultGrants]) ∧
      catalog.owner? .schemas ⟨"\"a\"", none⟩ = none ∧
      ⟨(ObjectName.mk "\"a\"" none).render .schemas, "USAGE"⟩ ∈
        catalog.held "analyst" .schemas .read := by
  exact ⟨by decide, _, quotedSchema.load_server, by decide, by decide⟩

end CatalogReport

end GrantPlan
