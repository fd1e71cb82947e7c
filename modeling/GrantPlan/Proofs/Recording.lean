import GrantPlan.Catalog.Document
import GrantPlan.Proofs.Entitlement
import Mathlib.Data.Finset.Max
/-!
# What records leave behind

A catalog that is built from records holds one entry for each of them, under the record's name with
its quotes taken off. Of several records of one object the last one counts.

Taking quotes off makes a name shorter unless it leaves it alone. A finite set of names of which
each is some other one without its quotes can therefore hold no quoted name at all
(`map_eq_self_of_covered`), and so the catalog answers under the names in the records just where
there is nothing to take off: `owner?_ofDocument_iff` for owners and `heldDefaults_ofDocument_iff`
for privileges on future objects.
-/

namespace GrantPlan

open Std

/-! ## Taking quotes off -/

namespace Identifier

/-- The closing quote is gone, and a quote that was written twice is there once. -/
theorem length_of_closeQuoted? {cs out : List Char} (h : closeQuoted? cs = some out) :
    out.length < cs.length := by
  induction cs using closeQuoted?.induct generalizing out with
  | case1 => simp [closeQuoted?] at h
  | case2 rest ih =>
    rw [closeQuoted?, Option.map_eq_some_iff] at h
    obtain ⟨read, hread, rfl⟩ := h
    have hlength := ih hread
    simp only [List.length_cons]
    omega
  | case3 rest hrest =>
    rw [closeQuoted?, if_pos rfl, Option.some.injEq] at h
    · simp [h]
    · exact hrest
  | case4 c rest hrest hc ih =>
    rw [closeQuoted?, if_neg hc, Option.map_eq_some_iff] at h
    · obtain ⟨read, hread, rfl⟩ := h
      have hlength := ih hread
      simp only [List.length_cons]
      omega
    · exact hrest

/-- Taking quotes off makes a text shorter unless it leaves it alone. -/
theorem length_unquote_lt {s : String} (h : unquote s ≠ s) : (unquote s).length < s.length := by
  have hchars : unquoteChars s.toList ≠ s.toList := by
    intro heq
    rw [unquote, heq, String.ofList_toList] at h
    exact h rfl
  rw [unquote, ← String.length_toList, String.toList_ofList, ← String.length_toList]
  cases hs : s.toList with
  | nil => simp [hs, unquoteChars] at hchars
  | cons c rest =>
    rw [hs] at hchars
    by_cases hc : c = '"'
    · subst c
      cases hclose : closeQuoted? rest with
      | none => simp [unquoteChars, hclose] at hchars
      | some out =>
        have hlength := length_of_closeQuoted? hclose
        simp only [unquoteChars, if_pos, hclose, Option.getD_some, List.length_cons]
        omega
    · exact absurd (unquoteChars_of_head_ne (by simpa using hc)) hchars

theorem length_unquote_le (s : String) : (unquote s).length ≤ s.length := by
  by_cases h : unquote s = s
  · rw [h]
  · exact (length_unquote_lt h).le

end Identifier

/-- Where every element is the image of some other, a map that makes an element smaller unless it
keeps it keeps them all. -/
theorem map_eq_self_of_covered {α : Type} {f : α → α} (size : α → Nat)
    (hsize : ∀ x, f x ≠ x → size (f x) < size x) {xs : List α}
    (hcovered : ∀ x ∈ xs, ∃ y ∈ xs, f y = x) : ∀ x ∈ xs, f x = x := by
  classical
  by_contra hsome
  -- the largest element that is not kept is the image of a larger one
  have hne : (xs.toFinset.filter fun x => f x ≠ x).Nonempty := by
    simpa [Finset.filter_nonempty_iff] using hsome
  obtain ⟨x, hx, hmax⟩ := Finset.exists_max_image _ size hne
  rw [Finset.mem_filter, List.mem_toFinset] at hx
  obtain ⟨y, hy, rfl⟩ := hcovered x hx.1
  have hmoved : f y ≠ y := fun heq => hx.2 (by rw [heq, heq])
  have hle := hmax y (by simp [hy, hmoved])
  have hlt := hsize y hmoved
  omega

/-! ## Names -/

/-- A name with the quotes of its parts taken off. -/
def ObjectName.unquoted (name : ObjectName) : ObjectName :=
  ⟨Identifier.unquote name.schema, name.object?.map Identifier.unquote⟩

/-- The length of a name in characters. -/
def ObjectName.size (name : ObjectName) : Nat :=
  name.schema.length + (name.object?.elim 0 String.length)

/-- Taking the quotes off a name makes it smaller unless it leaves both parts alone. -/
theorem ObjectName.size_unquoted_lt {name : ObjectName} (h : name.unquoted ≠ name) :
    name.unquoted.size < name.size := by
  obtain ⟨schema, object?⟩ := name
  have hschema := Identifier.length_unquote_le schema
  by_cases hsame : Identifier.unquote schema = schema
  · -- then it is the object that is quoted
    cases object? with
    | none => simp [unquoted, hsame] at h
    | some object =>
      have hobject : Identifier.unquote object ≠ object := by simpa [unquoted, hsame] using h
      have hlength := Identifier.length_unquote_lt hobject
      simp only [unquoted, size, Option.map_some, Option.elim_some]
      omega
  · have hlength := Identifier.length_unquote_lt hsame
    cases object? with
    | none => simpa [unquoted, size] using hlength
    | some object =>
      have hobject := Identifier.length_unquote_le object
      simp only [unquoted, size, Option.map_some, Option.elim_some]
      omega

/-! ## Entries -/

namespace OrderedMap

variable {κ ν : Type} [DecidableEq κ]

/-- The value of the last entry with a key. -/
def lastValue? (entries : List (κ × ν)) (k : κ) : Option ν :=
  ((entries.filter (·.1 = k)).getLast?).map Prod.snd

/-- An entry counts only if no later one has its key. -/
theorem lastValue?_cons (e : κ × ν) (entries : List (κ × ν)) (k : κ) :
    lastValue? (e :: entries) k =
      (lastValue? entries k).or (if k = e.1 then some e.2 else none) := by
  by_cases hk : e.1 = k
  · simp only [lastValue?, List.filter_cons, hk, decide_true, if_true, List.getLast?_cons]
    cases (entries.filter (·.1 = k)).getLast? <;> rfl
  · simp [lastValue?, hk, Ne.symm hk]

/-- Later entries count first. -/
theorem lastValue?_append (entries later : List (κ × ν)) (k : κ) :
    lastValue? (entries ++ later) k = (lastValue? later k).or (lastValue? entries k) := by
  simp [lastValue?, Option.map_or]

/-- A key has a last value when it has any entry. -/
theorem lastValue?_eq_none_iff {entries : List (κ × ν)} {k : κ} :
    lastValue? entries k = none ↔ ∀ e ∈ entries, e.1 ≠ k := by
  simp [lastValue?]

/-- The last value of a key comes from an entry. -/
theorem mem_of_lastValue?_eq_some {entries : List (κ × ν)} {k : κ} {v : ν}
    (h : lastValue? entries k = some v) : (k, v) ∈ entries := by
  obtain ⟨⟨k', v'⟩, hlast, rfl⟩ := Option.map_eq_some_iff.1 h
  obtain ⟨hmem, hk⟩ := List.mem_filter.1 (List.mem_of_getLast? hlast)
  obtain rfl : k' = k := of_decide_eq_true hk
  exact hmem

/-- The keys of a map are all different, so its one entry for a key is the last one. -/
theorem lastValue?_toList [Ord κ] [TransOrd κ] (m : OrderedMap κ ν) (k : κ) :
    lastValue? m.toList k = m.get? k := by
  cases hlast : lastValue? m.toList k with
  | some v => exact (get?_eq_some_iff.2 (mem_of_lastValue?_eq_some hlast)).symm
  | none =>
    cases hfound : m.get? k with
    | none => rfl
    | some v => exact absurd rfl (lastValue?_eq_none_iff.1 hlast _ (get?_eq_some_iff.1 hfound))

/-- A map is determined by the values under its keys. -/
theorem ext_get? [Ord κ] [TransOrd κ] {m m' : OrderedMap κ ν} (h : ∀ k, m.get? k = m'.get? k) :
    m = m' := by
  have hmem : ∀ e, e ∈ m.toList ↔ e ∈ m'.toList := by
    intro (k, v)
    rw [← get?_eq_some_iff, ← get?_eq_some_iff, h]
  have hnodup : ∀ n : OrderedMap κ ν, n.toList.Nodup := fun n =>
    .of_map _ (nodup_of_increasing n.increasing)
  -- the same entries without repetition, and both in the order of their keys
  have hperm := (List.perm_ext_iff_of_nodup (hnodup m) (hnodup m')).2 hmem
  have heq : m.toList = m'.toList := by
    refine hperm.eq_of_pairwise (fun a b _ _ hab hba => ?_) (List.pairwise_map.1 m.increasing)
      (List.pairwise_map.1 m'.increasing)
    exact absurd hba (OrientedCmp.not_lt_of_lt hab)
  cases m
  cases m'
  cases heq
  rfl

variable [Ord κ] [TransOrd κ] [LawfulEqOrd κ]

/-- The map with entries written one after the other. -/
def insertMany (m : OrderedMap κ ν) (entries : List (κ × ν)) : OrderedMap κ ν :=
  entries.foldl (fun m e => m.insert e.1 e.2) m

/-- Under each key, the last entry written decides, and what was there before if no entry is for the
key. -/
theorem get?_insertMany (m : OrderedMap κ ν) (entries : List (κ × ν)) (k : κ) :
    (m.insertMany entries).get? k = (lastValue? entries k).or (m.get? k) := by
  induction entries generalizing m with
  | nil => rfl
  | cons e entries ih =>
    show ((m.insert e.1 e.2).insertMany entries).get? k = _
    rw [ih, get?_insert, lastValue?_cons]
    cases lastValue? entries k with
    | some v => rfl
    | none => by_cases hk : k = e.1 <;> simp [hk]

end OrderedMap

/-! ## Records -/

/-- The object that a record is about, under the name in the record. -/
def ObjectRecord.ref (r : ObjectRecord) : ObjectRef := ⟨r.kind, ⟨r.schema, r.name?⟩⟩

/-- An object with the quotes of its name taken off. -/
def ObjectRef.unquoted (ref : ObjectRef) : ObjectRef := ⟨ref.kind, ref.name.unquoted⟩

/-- The grant that a record leaves. -/
def GrantRecord.grant (r : GrantRecord) : Grant :=
  ⟨r.role, r.kind, ⟨ObjectName.canonical r.kind r.object, r.verb⟩⟩

/-- The default grant of a record, under the schema in the record. -/
def DefaultGrantRecord.grant (r : DefaultGrantRecord) : DefaultGrant :=
  ⟨r.role, r.kind, ⟨r.grantor, r.schema, r.verb⟩⟩

/-- A default grant with the quotes of its schema taken off. -/
def DefaultGrant.unquoted (grant : DefaultGrant) : DefaultGrant :=
  ⟨grant.role, grant.kind, ⟨grant.privilege.grantor, Identifier.unquote grant.privilege.schema,
    grant.privilege.verb⟩⟩

namespace Catalog

/-- Recording superusers one by one fills the table of superusers. -/
theorem foldl_addSuperuser (catalog : Catalog) (roles : List String) :
    roles.foldl addSuperuser catalog =
      { catalog with superusers := catalog.superusers.insertMany roles } := by
  induction roles generalizing catalog with
  | nil => rfl
  | cons role roles ih => exact ih _

/-- Recording objects fills the table of owners, under names without quotes. -/
theorem foldl_addObject (catalog : Catalog) (records : List ObjectRecord) :
    records.foldl (fun catalog r => catalog.addObject r.kind r.schema r.name? r.owner) catalog =
      { catalog with
        owners := catalog.owners.insertMany (records.map fun r => (r.ref.unquoted, r.owner)) } := by
  induction records generalizing catalog with
  | nil => rfl
  | cons r records ih => exact ih _

/-- Recording grants fills the table of grants, with canonical objects. -/
theorem foldl_addGrant (catalog : Catalog) (records : List GrantRecord) :
    records.foldl (fun catalog r => catalog.addGrant r.role r.kind r.object r.verb) catalog =
      { catalog with grants := catalog.grants.insertMany (records.map GrantRecord.grant) } := by
  induction records generalizing catalog with
  | nil => rfl
  | cons r records ih => exact ih _

/-- Recording default grants fills the last table, under schemas without quotes. -/
theorem foldl_addDefaultGrant (catalog : Catalog) (records : List DefaultGrantRecord) :
    records.foldl
        (fun catalog r => catalog.addDefaultGrant r.role r.kind r.grantor r.schema r.verb) catalog =
      { catalog with
        defaultGrants :=
          catalog.defaultGrants.insertMany (records.map fun r => r.grant.unquoted) } := by
  induction records generalizing catalog with
  | nil => rfl
  | cons r records ih => exact ih _

/-- The four tables of a catalog hold what the four lists of its document say. -/
theorem ofDocument_eq (document : CatalogDocument) :
    ofDocument document =
      { superusers := .ofList document.superusers
        owners := .insertMany ∅ (document.objects.map fun r => (r.ref.unquoted, r.owner))
        grants := .ofList (document.grants.map GrantRecord.grant)
        defaultGrants := .ofList (document.defaultGrants.map fun r => r.grant.unquoted) } := by
  simp only [ofDocument, foldl_addSuperuser, foldl_addObject, foldl_addGrant,
    foldl_addDefaultGrant]
  rfl

/-! ## Under the names in the records -/

end Catalog

/-- The owner of an object by the last record of it. -/
def CatalogDocument.owner? (document : CatalogDocument) (kind : ObjectKind) (name : ObjectName) :
    Option String :=
  ((document.objects.filter (·.ref = ⟨kind, name⟩)).getLast?).map ObjectRecord.owner

theorem CatalogDocument.owner?_eq_lastValue? (document : CatalogDocument) (kind : ObjectKind)
    (name : ObjectName) :
    document.owner? kind name =
      OrderedMap.lastValue? (document.objects.map fun r => (r.ref, r.owner)) ⟨kind, name⟩ := by
  simp [owner?, OrderedMap.lastValue?, List.filter_map, Function.comp_def]

/-- Whether the verb of a default grant belongs to some access level. -/
def DefaultGrant.isManaged (grant : DefaultGrant) : Bool :=
  (grant.kind.accessFor? grant.privilege.verb).isSome

/-- A default grant is managed when some level has its verb. -/
theorem DefaultGrant.isManaged_iff {grant : DefaultGrant} :
    grant.isManaged = true ↔ ∃ access, grant.privilege.verb ∈ grant.kind.verbs access := by
  simp only [isManaged, Option.isSome_iff_exists, ObjectKind.accessFor?_eq_some_iff]

theorem ObjectRef.size_unquoted_lt {ref : ObjectRef} (h : ref.unquoted ≠ ref) :
    ref.unquoted.name.size < ref.name.size := by
  obtain ⟨kind, name⟩ := ref
  refine ObjectName.size_unquoted_lt fun heq => h ?_
  rw [unquoted, heq]

theorem DefaultGrant.length_unquoted_lt {grant : DefaultGrant} (h : grant.unquoted ≠ grant) :
    grant.unquoted.privilege.schema.length < grant.privilege.schema.length := by
  obtain ⟨role, kind, grantor, schema, verb⟩ := grant
  refine Identifier.length_unquote_lt fun heq => h ?_
  rw [unquoted, heq]

namespace Catalog

/-- The owner of an object is given by the last record that comes to its name once quotes are taken
off. -/
theorem owner?_ofDocument (document : CatalogDocument) (kind : ObjectKind) (name : ObjectName) :
    (ofDocument document).owner? kind name =
      OrderedMap.lastValue? (document.objects.map fun r => (r.ref.unquoted, r.owner))
        ⟨kind, name⟩ := by
  rw [owner?, ofDocument_eq, OrderedMap.get?_insertMany, OrderedMap.get?_empty, Option.or_none]

/-- What is recorded is what has an owner, under its name without quotes. -/
theorem exists_owner?_ofDocument_iff {document : CatalogDocument} {kind : ObjectKind}
    {name : ObjectName} :
    (∃ owner, (ofDocument document).owner? kind name = some owner) ↔
      ∃ r ∈ document.objects, r.ref.unquoted = ⟨kind, name⟩ := by
  rw [owner?_ofDocument, ← Option.ne_none_iff_exists', Ne, OrderedMap.lastValue?_eq_none_iff]
  simp

/-- Owners are found under the names in the records just when no record has a quoted name. -/
theorem owner?_ofDocument_iff (document : CatalogDocument) :
    (∀ kind name, (ofDocument document).owner? kind name = document.owner? kind name) ↔
      ∀ r ∈ document.objects, r.ref.unquoted = r.ref := by
  constructor
  · intro h
    -- an owner under the name in a record comes from a record of which that name is left over
    have hcovered : ∀ ref ∈ document.objects.map ObjectRecord.ref,
        ∃ ref' ∈ document.objects.map ObjectRecord.ref, ref'.unquoted = ref := by
      rw [List.forall_mem_map]
      intro r hr
      by_contra hnone
      have hfound := h r.kind ⟨r.schema, r.name?⟩
      rw [owner?_ofDocument, OrderedMap.lastValue?_eq_none_iff.2 ?_, eq_comm,
        CatalogDocument.owner?_eq_lastValue?, OrderedMap.lastValue?_eq_none_iff] at hfound
      · exact hfound _ (List.mem_map_of_mem hr) rfl
      · intro e he heq
        obtain ⟨r', hr', rfl⟩ := List.mem_map.1 he
        exact hnone ⟨r'.ref, List.mem_map_of_mem hr', heq⟩
    have hkept := map_eq_self_of_covered (fun ref => ref.name.size)
      (fun _ => ObjectRef.size_unquoted_lt) hcovered
    exact fun r hr => hkept r.ref (List.mem_map_of_mem hr)
  · intro h kind name
    have hentries : (document.objects.map fun r => (r.ref.unquoted, r.owner)) =
        document.objects.map fun r => (r.ref, r.owner) :=
      List.map_congr_left fun r hr => by rw [h r hr]
    rw [owner?_ofDocument, hentries, CatalogDocument.owner?_eq_lastValue?]

/-- What a role holds are the grants on record for it, with the verbs of the level. -/
theorem mem_held_ofDocument {document : CatalogDocument} {role : String} {kind : ObjectKind}
    {access : Access} {p : Privilege} :
    p ∈ (ofDocument document).held role kind access ↔
      (∃ r ∈ document.grants, r.grant = ⟨role, kind, p⟩) ∧ p.verb ∈ kind.verbs access := by
  rw [mem_held_iff, ofDocument_eq]
  simp only [Holds, OrderedSet.mem_ofList, List.mem_map]

/-- On future objects these are the default grants on record, with the quotes of their schemas taken
off. -/
theorem mem_heldDefaults_ofDocument {document : CatalogDocument} {role : String}
    {kind : ObjectKind} {access : Access} {p : DefaultPrivilege} :
    p ∈ (ofDocument document).heldDefaults role kind access ↔
      (∃ r ∈ document.defaultGrants, r.grant.unquoted = ⟨role, kind, p⟩) ∧
        p.verb ∈ kind.verbs access := by
  rw [mem_heldDefaults_iff, ofDocument_eq]
  simp only [Holds, OrderedSet.mem_ofList, List.mem_map]

/-- Privileges on future objects are found under the schemas in the records just when no record has
a quoted schema, but for records that cannot be found at any access level. -/
theorem heldDefaults_ofDocument_iff (document : CatalogDocument) :
    (∀ role kind access p, p ∈ (ofDocument document).heldDefaults role kind access ↔
      (∃ r ∈ document.defaultGrants, r.grant = ⟨role, kind, p⟩) ∧ p.verb ∈ kind.verbs access) ↔
    ∀ r ∈ document.defaultGrants, r.grant.isManaged = true → r.grant.unquoted = r.grant := by
  have hmanaged : ∀ grant : DefaultGrant, grant.unquoted.isManaged = grant.isManaged :=
    fun _ => rfl
  constructor
  · intro h
    let findable := (document.defaultGrants.map DefaultGrantRecord.grant).filter
      DefaultGrant.isManaged
    have hcovered : ∀ grant ∈ findable, ∃ grant' ∈ findable, grant'.unquoted = grant := by
      intro grant hgrant
      obtain ⟨hmem, hverb⟩ := List.mem_filter.1 hgrant
      obtain ⟨access, haccess⟩ := DefaultGrant.isManaged_iff.1 hverb
      have hheld := (h grant.role grant.kind access grant.privilege).2
        ⟨List.mem_map.1 hmem, haccess⟩
      obtain ⟨⟨r, hr, heq⟩, -⟩ := mem_heldDefaults_ofDocument.1 hheld
      have hr' : r.grant.isManaged = true := by rw [← hmanaged, heq]; exact hverb
      exact ⟨r.grant, List.mem_filter.2 ⟨List.mem_map_of_mem hr, hr'⟩, heq⟩
    have hkept := map_eq_self_of_covered (fun grant => grant.privilege.schema.length)
      (fun _ => DefaultGrant.length_unquoted_lt) hcovered
    exact fun r hr hverb => hkept r.grant (List.mem_filter.2 ⟨List.mem_map_of_mem hr, hverb⟩)
  · intro h role kind access p
    rw [mem_heldDefaults_ofDocument]
    refine and_congr_left fun haccess => exists_congr fun r => and_congr_right fun hr => ?_
    -- either grant has the verb `p` has, so the record is one that can be found
    have hsame : r.grant.isManaged = true → r.grant.unquoted = r.grant := h r hr
    have hverb : DefaultGrant.isManaged ⟨role, kind, p⟩ = true :=
      DefaultGrant.isManaged_iff.2 ⟨access, haccess⟩
    constructor
    · intro heq
      rw [← heq, hmanaged] at hverb
      rw [← heq, hsame hverb]
    · intro heq
      rw [← heq] at hverb
      rw [hsame hverb, heq]

end Catalog

end GrantPlan
