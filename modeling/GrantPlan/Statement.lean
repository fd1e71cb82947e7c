import GrantPlan.Identifier
import GrantPlan.ObjectKind
import GrantPlan.Privilege
/-!
# Statements

The steps of a plan, and the SQL text that carries each of them out.
-/

namespace GrantPlan

/-- One step of a plan. -/
inductive Statement
  /-- `role` receives a privilege on an object that exists. -/
  | grant (role : String) (kind : ObjectKind) (privilege : Privilege)
  /-- `role` loses a privilege on an object that exists. -/
  | revoke (role : String) (kind : ObjectKind) (privilege : Privilege)
  /-- `role` is to receive a privilege on each future object. -/
  | grantDefault (role : String) (kind : ObjectKind) (privilege : DefaultPrivilege)
  /-- `role` is no longer to receive a privilege on each future object. -/
  | revokeDefault (role : String) (kind : ObjectKind) (privilege : DefaultPrivilege)
  /-- A note that nothing is planned for a superuser, whose privileges are implicit. -/
  | skipSuperuser (role : String)
deriving DecidableEq, Repr

namespace Statement

/-- The role that a statement is about. -/
def role : Statement → String
  | grant role .. => role
  | revoke role .. => role
  | grantDefault role .. => role
  | revokeDefault role .. => role
  | skipSuperuser role => role

/-- Whether carrying the statement out changes the database. -/
def isChange : Statement → Bool
  | skipSuperuser _ => false
  | _ => true

/-- The commands that change what `grantor` passes on with each object created in a schema. Only
the grantor's own default privileges can be altered, so the grantor's role is taken on first. -/
def asGrantor (privilege : DefaultPrivilege) (change : String) : String :=
  "SET ROLE " ++ Identifier.quote privilege.grantor ++ ";\n" ++
    "ALTER DEFAULT PRIVILEGES IN SCHEMA " ++ Identifier.render privilege.schema ++ " " ++ change ++
    ";\nRESET ROLE;"

/-- The SQL text of a statement. A note is a comment. -/
def sql : Statement → String
  | grant role kind privilege =>
    "GRANT " ++ privilege.verb ++ " ON " ++ kind.keyword ++ " " ++ privilege.object ++ " TO " ++
      Identifier.quote role ++ ";"
  | revoke role kind privilege =>
    "REVOKE " ++ privilege.verb ++ " ON " ++ kind.keyword ++ " " ++ privilege.object ++ " FROM " ++
      Identifier.quote role ++ ";"
  | grantDefault role kind privilege =>
    asGrantor privilege
      ("GRANT " ++ privilege.verb ++ " ON " ++ kind.pluralKeyword ++ " TO " ++ Identifier.quote role)
  | revokeDefault role kind privilege =>
    asGrantor privilege
      ("REVOKE " ++ privilege.verb ++ " ON " ++ kind.pluralKeyword ++ " FROM " ++
        Identifier.quote role)
  | skipSuperuser role =>
    "-- Skipping privilege configuration for superuser " ++ Identifier.quote role

end Statement

end GrantPlan
