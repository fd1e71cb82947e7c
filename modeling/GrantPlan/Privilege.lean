import GrantPlan.Ordered.Set
/-!
# Privileges

What a role can hold: a verb on an object that exists, or a verb on whatever some role will create
in a schema.
-/

namespace GrantPlan

open Std

/-- A verb on an object that exists. -/
structure Privilege where
  /-- The canonical spelling of the object's name. -/
  object : String
  verb : String
deriving DecidableEq, Repr

/-- A verb on the objects that `grantor` will create in `schema`. -/
structure DefaultPrivilege where
  grantor : String
  /-- The schema without quotes. -/
  schema : String
  verb : String
deriving DecidableEq, Repr

namespace Privilege

/-- By object, then by verb. -/
instance : Ord Privilege := ⟨compareLex (compareOn (·.object)) (compareOn (·.verb))⟩

instance : TransOrd Privilege :=
  inferInstanceAs (TransCmp (compareLex (compareOn Privilege.object) (compareOn Privilege.verb)))

instance : LawfulEqOrd Privilege where
  eq_of_compare {a b} h := by
    obtain ⟨hobject, hverb⟩ := compareLex_eq_eq.1 h
    have := eq_of_compareOn hobject
    have := eq_of_compareOn hverb
    cases a
    cases b
    simp_all

end Privilege

namespace DefaultPrivilege

/-- By grantor, then by schema, then by verb. -/
instance : Ord DefaultPrivilege :=
  ⟨compareLex (compareOn (·.grantor)) (compareLex (compareOn (·.schema)) (compareOn (·.verb)))⟩

instance : TransOrd DefaultPrivilege :=
  inferInstanceAs (TransCmp (compareLex (compareOn DefaultPrivilege.grantor)
    (compareLex (compareOn DefaultPrivilege.schema) (compareOn DefaultPrivilege.verb))))

instance : LawfulEqOrd DefaultPrivilege where
  eq_of_compare {a b} h := by
    obtain ⟨hgrantor, hrest⟩ := compareLex_eq_eq.1 h
    obtain ⟨hschema, hverb⟩ := compareLex_eq_eq.1 hrest
    have := eq_of_compareOn hgrantor
    have := eq_of_compareOn hschema
    have := eq_of_compareOn hverb
    cases a
    cases b
    simp_all

end DefaultPrivilege

end GrantPlan
