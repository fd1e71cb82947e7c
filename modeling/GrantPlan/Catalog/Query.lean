/-!
# Catalog queries

The four questions that are put to a database server about its catalog, in the order in which they
are asked, and their SQL texts.

Owners hold privileges on their own objects without a grant, so grants to owners are left out. So
are grants to everybody, the system's own schemas, and procedures, which no function statement can
name.
-/

namespace GrantPlan

/-- A question about the catalog of a database. -/
inductive CatalogQuery
  /-- Which roles are superusers. -/
  | superusers
  /-- Who owns which object. -/
  | objects
  /-- Who has been granted what on objects that exist. -/
  | grants
  /-- Who is to receive what on future objects. -/
  | defaultGrants
deriving DecidableEq, Repr

namespace CatalogQuery

/-- What a question is about, as messages put it. -/
def subject : CatalogQuery → String
  | superusers => "superusers"
  | objects => "object ownership"
  | grants => "grants"
  | defaultGrants => "default privileges"

/-! ## SQL texts -/

/-- The text of some lines, each of them ended. -/
def linesText (lines : List String) : String := String.join (lines.map (· ++ "\n"))

/-- The condition that keeps the system's own schemas out. -/
def userSchemas : String := "n.nspname NOT LIKE 'pg\\_%' AND n.nspname <> 'information_schema'"

/-- The parts of a query, each of them a list of lines, for one table after the other. -/
def unionText (parts : List (List String)) : String :=
  "\n" ++ linesText (["UNION ALL"].intercalate parts)

/-- The text of the question which roles are superusers. -/
def superusersText : String :=
  "SELECT rolname::text AS rolname FROM pg_catalog.pg_roles WHERE rolsuper"

/-- The text of the question who owns which object. -/
def objectsText : String :=
  unionText
    [ [ "SELECT 'schemas'::text AS kind, n.nspname::text AS schema, NULL::text AS name,",
        "       pg_get_userbyid(n.nspowner)::text AS owner",
        "FROM pg_catalog.pg_namespace n",
        "WHERE " ++ userSchemas ],
      [ "SELECT CASE WHEN c.relkind = 'S' THEN 'sequences' ELSE 'tables' END, n.nspname::text,",
        "       c.relname::text, pg_get_userbyid(c.relowner)::text",
        "FROM pg_catalog.pg_class c",
        "JOIN pg_catalog.pg_namespace n ON n.oid = c.relnamespace",
        "WHERE c.relkind IN ('r', 'p', 'v', 'm', 'f', 'S') AND " ++ userSchemas ],
      [ "SELECT 'functions', n.nspname::text,",
        "       (p.proname || '(' || pg_get_function_identity_arguments(p.oid) || ')')::text,",
        "       pg_get_userbyid(p.proowner)::text",
        "FROM pg_catalog.pg_proc p",
        "JOIN pg_catalog.pg_namespace n ON n.oid = p.pronamespace",
        "WHERE p.prokind <> 'p' AND " ++ userSchemas ],
      [ "SELECT 'types', n.nspname::text, t.typname::text, pg_get_userbyid(t.typowner)::text",
        "FROM pg_catalog.pg_type t",
        "JOIN pg_catalog.pg_namespace n ON n.oid = t.typnamespace",
        "WHERE t.typtype IN ('c', 'd', 'e', 'r')",
        "  AND t.typelem = 0",
        "  AND (t.typrelid = 0 OR EXISTS (",
        "        SELECT 1 FROM pg_catalog.pg_class c WHERE c.oid = t.typrelid AND c.relkind = 'c'))",
        "  AND " ++ userSchemas ] ]

/-- The text of the question who has been granted what on objects that exist. -/
def grantsText : String :=
  unionText
    [ [ "SELECT 'schemas'::text AS kind, n.nspname::text AS schema, NULL::text AS name,",
        "       r.rolname::text AS grantee, a.privilege_type::text AS privilege",
        "FROM pg_catalog.pg_namespace n",
        "CROSS JOIN LATERAL aclexplode(n.nspacl) a",
        "JOIN pg_catalog.pg_roles r ON r.oid = a.grantee",
        "WHERE a.grantee <> n.nspowner AND " ++ userSchemas ],
      [ "SELECT CASE WHEN c.relkind = 'S' THEN 'sequences' ELSE 'tables' END, n.nspname::text,",
        "       c.relname::text, r.rolname::text, a.privilege_type::text",
        "FROM pg_catalog.pg_class c",
        "JOIN pg_catalog.pg_namespace n ON n.oid = c.relnamespace",
        "CROSS JOIN LATERAL aclexplode(c.relacl) a",
        "JOIN pg_catalog.pg_roles r ON r.oid = a.grantee",
        "WHERE c.relkind IN ('r', 'p', 'v', 'm', 'f', 'S') AND a.grantee <> c.relowner AND " ++
          userSchemas ],
      [ "SELECT 'functions', n.nspname::text,",
        "       (p.proname || '(' || pg_get_function_identity_arguments(p.oid) || ')')::text,",
        "       r.rolname::text, a.privilege_type::text",
        "FROM pg_catalog.pg_proc p",
        "JOIN pg_catalog.pg_namespace n ON n.oid = p.pronamespace",
        "CROSS JOIN LATERAL aclexplode(p.proacl) a",
        "JOIN pg_catalog.pg_roles r ON r.oid = a.grantee",
        "WHERE p.prokind <> 'p' AND a.grantee <> p.proowner AND " ++ userSchemas ],
      [ "SELECT 'types', n.nspname::text, t.typname::text, r.rolname::text, a.privilege_type::text",
        "FROM pg_catalog.pg_type t",
        "JOIN pg_catalog.pg_namespace n ON n.oid = t.typnamespace",
        "CROSS JOIN LATERAL aclexplode(t.typacl) a",
        "JOIN pg_catalog.pg_roles r ON r.oid = a.grantee",
        "WHERE t.typtype IN ('c', 'd', 'e', 'r') AND t.typelem = 0",
        "  AND a.grantee <> t.typowner AND " ++ userSchemas ] ]

/-- The text of the question who is to receive what on future objects. -/
def defaultGrantsText : String :=
  unionText
    [ [ "SELECT CASE d.defaclobjtype",
        "         WHEN 'r' THEN 'tables'",
        "         WHEN 'S' THEN 'sequences'",
        "         WHEN 'f' THEN 'functions'",
        "         ELSE 'types'",
        "       END AS kind,",
        "       pg_get_userbyid(d.defaclrole)::text AS grantor,",
        "       n.nspname::text AS schema,",
        "       r.rolname::text AS grantee,",
        "       a.privilege_type::text AS privilege",
        "FROM pg_catalog.pg_default_acl d",
        "JOIN pg_catalog.pg_namespace n ON n.oid = d.defaclnamespace",
        "CROSS JOIN LATERAL aclexplode(d.defaclacl) a",
        "JOIN pg_catalog.pg_roles r ON r.oid = a.grantee",
        "WHERE d.defaclobjtype IN ('r', 'S', 'f', 'T')" ] ]

/-- The SQL text of a question. -/
def sql : CatalogQuery → String
  | superusers => superusersText
  | objects => objectsText
  | grants => grantsText
  | defaultGrants => defaultGrantsText

end CatalogQuery

end GrantPlan
