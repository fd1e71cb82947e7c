import GrantPlan.Proofs.Loading
import GrantPlan.Proofs.SqlCommand
import GrantPlan.Proofs.StoredGrants
/-!
# Names of functions

A server sends the name of a function together with its identity arguments, as one text
(`functionSignature`). A statement has to address the function by its name between quotes, with the
arguments behind them (`functionSpelling`).

The text is cut where its first parenthesis stands, which is where the arguments begin so long as
the name has no parenthesis itself (`render_functionName_iff`). Before that, quotes are taken off
the text of an object that is recorded, which must leave it alone. Just the functions that pass both
are named whole wherever they come up (`functions_named_whole_iff`).
-/

namespace GrantPlan

variable {schema name arguments : String}

/-! ## What a server sends and what a statement needs -/

/-- The identity arguments of a function between parentheses. -/
def argumentList (arguments : String) : String := "(" ++ arguments ++ ")"

/-- The text by which a server tells a function: its name, and its arguments. -/
def functionSignature (name arguments : String) : String := name ++ argumentList arguments

/-- A function as an object of its schema. -/
def functionName (schema name arguments : String) : ObjectName :=
  ⟨schema, some (functionSignature name arguments)⟩

/-- The text by which a statement has to address a function: only the name is between quotes. -/
def functionSpelling (schema name arguments : String) : String :=
  Identifier.render schema ++ "." ++ (Identifier.quote name ++ argumentList arguments)

theorem toList_argumentList (arguments : String) :
    (argumentList arguments).toList = '(' :: (arguments.toList ++ [')']) := by
  simp [argumentList]

theorem getLast?_argumentList (arguments : String) :
    (argumentList arguments).toList.getLast? = some ')' := by
  rw [argumentList, String.toList_append]
  exact List.getLast?_concat

/-! ## Where the arguments begin -/

namespace Identifier

/-- What stands behind the closing quote tells where a text between quotes ends. -/
theorem doubled_append_inj {cs ds rest rest' : List Char} (h : rest.head? ≠ some '"')
    (h' : rest'.head? ≠ some '"') (heq : doubled cs ++ '"' :: rest = doubled ds ++ '"' :: rest') :
    cs = ds := by
  induction cs generalizing ds with
  | nil =>
    cases ds with
    | nil => rfl
    | cons d ds => grind [doubled]
  | cons c cs ih =>
    cases ds with
    | nil => grind [doubled]
    | cons d ds =>
      -- either character is told by the first one written for it
      obtain rfl : c = d := by grind [doubled]
      rw [ih]
      by_cases hc : c = '"' <;> simpa [doubled, hc] using heq

theorem quote_append_inj {s t u v : String} (hu : u.toList.head? ≠ some '"')
    (hv : v.toList.head? ≠ some '"') (h : quote s ++ u = quote t ++ v) : s = t := by
  have hchars := congrArg String.toList h
  simp only [quote, String.toList_append, String.toList_ofList, List.cons_append,
    List.append_assoc, List.nil_append, List.cons.injEq, true_and] at hchars
  exact String.toList_inj.1 (doubled_append_inj hu hv hchars)

end Identifier

namespace ObjectName

/-- A function is cut at the first parenthesis of its text. -/
theorem splitArguments_functionSignature (name arguments : String) :
    splitArguments .functions (functionSignature name arguments) =
      (String.ofList ((functionSignature name arguments).toList.takeWhile (· ≠ '(')),
        String.ofList ((functionSignature name arguments).toList.dropWhile (· ≠ '('))) := by
  have hopen : '(' ∈ (functionSignature name arguments).toList := by
    simp [functionSignature, toList_argumentList]
  have hclose : (functionSignature name arguments).toList.getLast? = some ')' := by
    rw [functionSignature, String.toList_append, List.getLast?_append, getLast?_argumentList,
      Option.some_or]
  simp [splitArguments, hopen, hclose]

theorem splitArguments_of_not_mem (h : '(' ∉ name.toList) :
    splitArguments .functions (functionSignature name arguments) =
      (name, argumentList arguments) := by
  have hname : ∀ c ∈ name.toList, decide (c ≠ '(') = true := fun c hc =>
    decide_eq_true fun heq => h (heq ▸ hc)
  have hfront : (argumentList arguments).toList.takeWhile (· ≠ '(') = [] := by
    simp [toList_argumentList]
  have hback : (argumentList arguments).toList.dropWhile (· ≠ '(') =
      (argumentList arguments).toList := by
    simp [toList_argumentList]
  rw [splitArguments_functionSignature, functionSignature, String.toList_append,
    List.takeWhile_append_of_pos hname, List.dropWhile_append_of_pos hname, hfront, hback,
    List.append_nil, String.ofList_toList, String.ofList_toList]

/-- The name of a function is between quotes as a whole just when it has no opening parenthesis. -/
theorem renderObject_functionSignature_iff :
    renderObject .functions (functionSignature name arguments) =
      Identifier.quote name ++ argumentList arguments ↔ '(' ∉ name.toList := by
  have hparts : renderObject .functions (functionSignature name arguments) =
      Identifier.quote (splitArguments .functions (functionSignature name arguments)).1 ++
        (splitArguments .functions (functionSignature name arguments)).2 := rfl
  rw [hparts]
  constructor
  · intro h hmem
    -- what is put between quotes stands in front of the first parenthesis
    obtain ⟨-, hhead, -⟩ := splitArguments_spec .functions (functionSignature name arguments)
    have hlist : (argumentList arguments).toList.head? ≠ some '"' := by
      simp [toList_argumentList]
    rw [← Identifier.quote_append_inj hhead hlist h, splitArguments_functionSignature,
      String.toList_ofList] at hmem
    have hbefore := List.all_eq_true.1 List.all_takeWhile _ hmem
    simp at hbefore
  · intro h
    rw [splitArguments_of_not_mem h]

/-- A function is spelled as a statement needs it just when its name has no opening parenthesis. -/
theorem render_functionName_iff :
    (functionName schema name arguments).render .functions =
      functionSpelling schema name arguments ↔ '(' ∉ name.toList :=
  (String.append_right_inj (Identifier.render schema ++ ".")).trans
    renderObject_functionSignature_iff

/-- The text that a statement needs is read as the function that it is for. -/
theorem ofText_functionSpelling (schema name arguments : String) :
    ofText (functionSpelling schema name arguments) = functionName schema name arguments := by
  have hlast : ∀ c, (argumentList arguments).toList.getLast? = some c → isBlank c = false := by
    intro c hc
    obtain rfl := Option.some.inj ((getLast?_argumentList arguments).symm.trans hc)
    decide
  have hobject := readPart_quoted name.toList (argumentList arguments).toList
    (by simp [toList_argumentList]) hlast
  rw [← String.toList_append, String.ofList_toList] at hobject
  rw [functionSpelling, ofText_append_dot (passedOver_render schema), readPart_render,
    functionName, functionSignature, ← hobject]
  simp [Identifier.quote]

end ObjectName

/-! ## Functions that a server reports -/

/-- Whether a function that a server reports is named as a statement needs it, wherever it comes up
in the catalog that is loaded. -/
structure CatalogReport.NamesWhole (report : CatalogReport) (catalog : Catalog)
    (schema name arguments : String) : Prop where
  /-- Among the functions of its schema. -/
  listed : ∃ entry ∈ catalog.objectsIn .functions schema,
    entry.1.render .functions = functionSpelling schema name arguments
  /-- In the grants that are reported on it. -/
  granted : ∀ r ∈ report.grants, r.kind = .functions → r.name = functionName schema name arguments →
    ⟨r.role, .functions, ⟨functionSpelling schema name arguments, r.verb⟩⟩ ∈ catalog.grants
  /-- In the statements that are planned about it, for any spec. -/
  planned : ∀ spec statements, plan spec catalog = .ok statements → ∀ role privilege,
    .grant role .functions privilege ∈ statements ∨
      .revoke role .functions privilege ∈ statements →
    ObjectName.ofText privilege.object = functionName schema name arguments →
    privilege.object = functionSpelling schema name arguments

namespace CatalogReport

variable {report : CatalogReport}

/-- A function whose text has no quotes to take off, and whose name has no parenthesis, is named
whole. -/
theorem namesWhole_of_plain {owner : String}
    (hreported : ⟨.functions, schema, some (functionSignature name arguments), owner⟩ ∈
      report.objects)
    (hname : '(' ∉ name.toList) (hschema : Identifier.unquote schema = schema)
    (hsignature : Identifier.unquote (functionSignature name arguments) =
      functionSignature name arguments) :
    report.NamesWhole (Catalog.ofDocument report.document) schema name arguments := by
  have hrender : (functionName schema name arguments).render .functions =
      functionSpelling schema name arguments := ObjectName.render_functionName_iff.2 hname
  refine ⟨?_, fun r hr hkind hfunction => ?_, ?_⟩
  · have hrecorded : ∃ r ∈ report.document.objects,
        r.ref.unquoted = ⟨.functions, functionName schema name arguments⟩ := by
      refine ⟨_, hreported, ?_⟩
      simp [ObjectRecord.ref, ObjectRef.unquoted, ObjectName.unquoted, functionName, hschema,
        hsignature]
    obtain ⟨recorded, howner⟩ := Catalog.exists_owner?_ofDocument_iff.2 hrecorded
    exact ⟨(functionName schema name arguments, recorded),
      Catalog.mem_objectsIn_iff.2 ⟨rfl, howner⟩, hrender⟩
  · rw [Catalog.ofDocument_eq, OrderedSet.mem_ofList]
    refine List.mem_map.2 ⟨r.record, List.mem_map_of_mem hr, ?_⟩
    rw [grant_record, hfunction, hkind, hrender]
  · intro spec statements hplan role privilege hs hread
    have hcatalog := Catalog.reachable_ofDocument report.document
    obtain ⟨direction, hs⟩ : ∃ direction : Sql.Direction,
        direction.statement (.onObject ⟨role, .functions, privilege⟩) ∈ statements := by
      rcases hs with hs | hs
      · exact ⟨.give, hs⟩
      · exact ⟨.take, hs⟩
    have hcanonical : Grant.IsCanonical ⟨role, .functions, privilege⟩ :=
      isCanonical_of_mem_plan hcatalog hplan hs
    rw [Grant.IsCanonical, ObjectName.canonical, hread, hrender] at hcanonical
    exact hcanonical.symm

/-- The functions that are named whole in whatever report they come: those without a parenthesis in
their names, where there are no quotes to take off either. -/
theorem functions_named_whole_iff (schema name arguments : String) :
    (∀ (report : CatalogReport) (owner : String),
      ⟨.functions, schema, some (functionSignature name arguments), owner⟩ ∈ report.objects →
      ∃ catalog, report.server.load =
          (.ok catalog, [.superusers, .objects, .grants, .defaultGrants]) ∧
        report.NamesWhole catalog schema name arguments) ↔
    '(' ∉ name.toList ∧ Identifier.unquote schema = schema ∧
      Identifier.unquote (functionSignature name arguments) = functionSignature name arguments := by
  constructor
  · intro h
    -- a report of this one function is enough
    obtain ⟨catalog, hload, hwhole⟩ :=
      h ⟨[], [⟨.functions, schema, some (functionSignature name arguments), "owner"⟩], [], []⟩ _
        (List.mem_singleton_self _)
    rw [load_server] at hload
    obtain rfl := Except.ok.inj (Prod.mk.inj hload).1
    obtain ⟨⟨listed, owner⟩, hlisted, hrender⟩ := hwhole.listed
    have hname : listed = functionName schema name arguments := by
      rw [← ObjectName.ofText_render .functions listed, hrender, ObjectName.ofText_functionSpelling]
    obtain ⟨-, howner⟩ := Catalog.mem_objectsIn_iff.1 hlisted
    obtain ⟨r, hr, hunquoted⟩ := Catalog.exists_owner?_ofDocument_iff.1 ⟨owner, howner⟩
    obtain rfl := List.mem_singleton.1 hr
    rw [hname] at hrender hunquoted
    refine ⟨ObjectName.render_functionName_iff.1 hrender, ?_⟩
    simpa [ObjectRecord.ref, ObjectRef.unquoted, ObjectName.unquoted, functionName] using hunquoted
  · rintro ⟨hname, hschema, hsignature⟩ report owner hreported
    exact ⟨_, report.load_server, namesWhole_of_plain hreported hname hschema hsignature⟩

/-- A server with one function, whose name is `we(ird`, and a role that may execute it. -/
def weirdFunction : CatalogReport where
  superusers := []
  objects := [⟨.functions, "finance", some "we(ird(integer)", "etl"⟩]
  grants := [⟨"analyst", .functions, ⟨"finance", some "we(ird(integer)"⟩, "EXECUTE"⟩]
  defaultGrants := []

/-- A spec by which a role is to have nothing. -/
def idleSpec : Spec := .ofList [("analyst", .default)]

/-- The function is listed and granted, and the grant is taken back, under the name `we` instead. -/
theorem not_named_whole :
    functionSpelling "finance" "we(ird" "integer" = "finance.\"we(ird\"(integer)" ∧
    ∃ catalog, weirdFunction.server.load =
        (.ok catalog, [.superusers, .objects, .grants, .defaultGrants]) ∧
      (catalog.objectsIn .functions "finance").map (·.1.render .functions) =
        ["finance.\"we\"(ird(integer)"] ∧
      catalog.grants.toList =
        [⟨"analyst", .functions, ⟨"finance.\"we\"(ird(integer)", "EXECUTE"⟩⟩] ∧
      plan idleSpec catalog =
        .ok [.revoke "analyst" .functions ⟨"finance.\"we\"(ird(integer)", "EXECUTE"⟩] :=
  ⟨by decide, _, weirdFunction.load_server, by decide, by decide, by decide⟩

end CatalogReport

end GrantPlan
