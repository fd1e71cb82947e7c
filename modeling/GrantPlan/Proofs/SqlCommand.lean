import GrantPlan.Proofs.History
import GrantPlan.Proofs.SqlToken
/-!
# SQL text as commands

A semicolon ends a command. Of the commands of PostgreSQL, those are read that give or take
privileges and those that take on a role (`Command.ofTokens?`); a reserved word is not read as a
name unless it stands between quotes.

The text of each statement of a plan is read back as the commands that carry the statement out
(`readCommands?_sql`), whatever characters its names are made of, and so no two statements have one
text. Grants on functions are left out: an argument list is text as it stands, and not a name.
-/

namespace GrantPlan

namespace Sql

open Identifier

/-- The commands of a text, each as its tokens. What stands behind the last semicolon is a command
as well, which is not ended. -/
def commands (text : String) : List (List Token) :=
  ((tokens text).splitOn (.mark ';')).filter (· ≠ [])

/-! ## Reading a command -/

/-- Whether a command gives something or takes it away. -/
inductive Direction
  | give
  | take
deriving DecidableEq, Repr

/-- The keyword for a direction. -/
def Direction.word : Direction → String
  | give => "grant"
  | take => "revoke"

/-- The keyword in front of the role that gains or loses. -/
def Direction.link : Direction → String
  | give => "to"
  | take => "from"

inductive Command
  | setRole (role : String)
  | resetRole
  /-- Changes what a role may do with one object. -/
  | onObject (direction : Direction) (verb : String) (kind : ObjectKind) (name : ObjectName)
      (role : String)
  /-- Changes what a role is to be allowed to do with future objects in a schema. -/
  | onFuture (direction : Direction) (verb : String) (kind : ObjectKind) (schema role : String)
deriving DecidableEq, Repr

/-- The name that a token can stand for. -/
def Token.name? : Token → Option String
  | word text => if isReserved text then none else some text
  | quoted name => some name
  | mark _ => none
  | unclosed _ => none

/-- The name of an object, with its schema in front of a dot, or of a schema; and what follows. -/
def readName? : List Token → Option (ObjectName × List Token)
  | schema :: .mark '.' :: object :: rest => do
    return (⟨← schema.name?, some (← object.name?)⟩, rest)
  | schema :: rest => do return (⟨← schema.name?, none⟩, rest)
  | [] => none

/-- A keyword as it is written in statements. -/
def capitals (word : String) : String := String.ofList (word.toList.map Char.toUpper)

def Direction.ofWord? (word : String) : Option Direction := [give, take].find? (·.word = word)

/-- The role at the end of a command. -/
def Direction.readRole? (direction : Direction) : List Token → Option String
  | [.word link, role] => if link = direction.link then role.name? else none
  | _ => none

/-- The kind that a keyword stands for, by the table of keywords. -/
def kindOf? (keyword : ObjectKind → String) (word : String) : Option ObjectKind :=
  ObjectKind.all.find? fun kind => keyword kind = capitals word

/-- The command that a run of tokens is. -/
def Command.ofTokens? : List Token → Option Command
  | [.word "reset", .word "role"] => some .resetRole
  | [.word "set", .word "role", role] => do return .setRole (← role.name?)
  | .word "alter" :: .word "default" :: .word "privileges" :: .word "in" :: .word "schema" ::
      schema :: .word direction :: .word verb :: .word "on" :: .word kind :: rest => do
    let direction ← Direction.ofWord? direction
    let kind ← kindOf? ObjectKind.pluralKeyword kind
    return .onFuture direction (capitals verb) kind (← schema.name?) (← direction.readRole? rest)
  | .word direction :: .word verb :: .word "on" :: .word kind :: rest => do
    let direction ← Direction.ofWord? direction
    let kind ← kindOf? ObjectKind.keyword kind
    let (name, rest) ← readName? rest
    return .onObject direction (capitals verb) kind name (← direction.readRole? rest)
  | _ => none

/-- The commands of a text, if all of them can be read. -/
def readCommands? (text : String) : Option (List Command) := (commands text).mapM Command.ofTokens?

end Sql

open Sql

/-! ## What statements mean -/

namespace Statement

/-- The commands that carry a statement out. -/
def commands : Statement → List Command
  | grant role kind privilege =>
    [.onObject .give privilege.verb kind (ObjectName.ofText privilege.object) role]
  | revoke role kind privilege =>
    [.onObject .take privilege.verb kind (ObjectName.ofText privilege.object) role]
  | grantDefault role kind privilege =>
    [.setRole privilege.grantor, .onFuture .give privilege.verb kind privilege.schema role,
      .resetRole]
  | revokeDefault role kind privilege =>
    [.setRole privilege.grantor, .onFuture .take privilege.verb kind privilege.schema role,
      .resetRole]
  | skipSuperuser _ => []

/-- Whether a statement names a function. -/
def namesFunction : Statement → Bool
  | grant _ kind _ => kind = .functions
  | revoke _ kind _ => kind = .functions
  | _ => false

end Statement

namespace Sql

open Identifier

/-- The statement that changes an entitlement in a direction. -/
def Direction.statement : Direction → Entitlement → Statement
  | give, e => e.award
  | take, e => e.withdraw

/-- What a statement about an existing object means is a single command, on the object under its
name. -/
theorem commands_onObject (direction : Direction) (grant : Grant) :
    (direction.statement (.onObject grant)).commands = [.onObject direction grant.privilege.verb
      grant.kind (ObjectName.ofText grant.privilege.object) grant.role] := by
  cases direction <;> rfl

/-- What a statement about future objects means takes three commands: to take on the role of the
grantor, to change the default there, and to go back. -/
theorem commands_onFuture (direction : Direction) (grant : DefaultGrant) :
    (direction.statement (.onFuture grant)).commands = [.setRole grant.privilege.grantor,
      .onFuture direction grant.privilege.verb grant.kind grant.privilege.schema grant.role,
      .resetRole] := by
  cases direction <;> rfl

/-! ## Tokens of statements -/

variable {cs : List Char} {ts : List Token} {kind : ObjectKind} {verb : String}

/-- A bare word in front of a blank is read to its end and in lower case, whatever follows the
blank. -/
theorem reads_word (h : isWord cs = true) : Reads (cs ++ [' ']) [.word (fold cs)] := by
  intro rest
  rw [List.append_assoc, tokensFrom_word h rfl]
  rfl

/-- So is an identifier in canonical spelling, bare or between quotes. -/
theorem reads_render (s : String) : Reads ((render s).toList ++ [' ']) [identifierToken s] := by
  intro rest
  rw [List.append_assoc, tokensFrom_render s rfl]
  rfl

/-- A role at the end of a command. -/
theorem reads_lastRole (role : String) :
    Reads ((quote role).toList ++ [';']) [.quoted role, .mark ';'] := by
  intro rest
  rw [List.append_assoc, tokensFrom_quote role rfl]
  rfl

/-- The tokens that a canonical name is read as. -/
def nameTokens (name : ObjectName) : List Token :=
  match name.object? with
  | none => [identifierToken name.schema]
  | some object => [identifierToken name.schema, .mark '.', .quoted object]

/-- The canonical name of an object is read as its identifiers with a dot in between. Names of
functions are left out, since they have arguments behind them. -/
theorem reads_name (hkind : kind ≠ .functions) (name : ObjectName) :
    Reads ((name.render kind).toList ++ [' ']) (nameTokens name) := by
  obtain ⟨schema, object?⟩ := name
  cases object? with
  | none => exact reads_render schema
  | some object =>
    have hobject : ObjectName.renderObject kind object = quote object := by
      simp [ObjectName.renderObject, ObjectName.splitArguments, hkind]
    have hdot : Reads ['.'] [.mark '.'] := fun rest => rfl
    intro rest
    have htext : (ObjectName.render kind ⟨schema, some object⟩).toList ++ [' '] ++ rest =
        (render schema).toList ++ (['.'] ++ ((quote object).toList ++ ' ' :: rest)) := by
      simp [ObjectName.render, hobject]
    rw [htext, tokensFrom_render schema rfl, hdot, tokensFrom_quote object rfl]
    rfl

/-- The object of a canonical grant is read as its name, although it is kept as a text. -/
theorem reads_object {grant : Grant} (hcanonical : grant.IsCanonical)
    (hkind : grant.kind ≠ .functions) :
    Reads (grant.privilege.object.toList ++ [' '])
      (nameTokens (ObjectName.ofText grant.privilege.object)) := by
  have hname := reads_name hkind (ObjectName.ofText grant.privilege.object)
  rwa [← ObjectName.canonical, hcanonical] at hname

/-- A keyword of a statement, as it is read. -/
def keywordToken (keyword : String) : Token := .word (fold keyword.toList)

/-- The tokens of a command that changes what a role may do with one object. -/
def Direction.objectTokens (direction : Direction) (verb : String) (kind : ObjectKind)
    (name : List Token) (role : String) : List Token :=
  [.word direction.word, keywordToken verb, .word "on", keywordToken kind.keyword] ++ name ++
    [.word direction.link, .quoted role]

/-- The tokens of a command that changes what a role is to be allowed to do with future objects. -/
def Direction.futureTokens (direction : Direction) (verb : String) (kind : ObjectKind)
    (schema role : String) : List Token :=
  [.word "alter", .word "default", .word "privileges", .word "in", .word "schema",
    identifierToken schema, .word direction.word, keywordToken verb, .word "on",
    keywordToken kind.pluralKeyword, .word direction.link, .quoted role]

/-- How a statement spells the keyword for a direction. -/
def Direction.opening : Direction → String
  | give => "GRANT "
  | take => "REVOKE "

/-- How a statement spells the keyword in front of its role. -/
def Direction.linking : Direction → String
  | give => " TO "
  | take => " FROM "

theorem reads_opening (direction : Direction) :
    Reads direction.opening.toList [.word direction.word] := by
  cases direction <;> exact fun rest => rfl

theorem reads_linking (direction : Direction) :
    ∃ spelled, direction.linking.toList = ' ' :: spelled ∧ Reads spelled [.word direction.link] := by
  cases direction with
  | give => exact ⟨"TO ".toList, rfl, fun rest => rfl⟩
  | take => exact ⟨"FROM ".toList, rfl, fun rest => rfl⟩

/-- The keywords of each kind are bare words, in the singular and in the plural. -/
theorem isWord_keyword (kind : ObjectKind) :
    isWord kind.keyword.toList = true ∧ isWord kind.pluralKeyword.toList = true := by
  cases kind <;> decide

/-- Granting and revoking on an existing object have one text, but for the two words of the
direction. -/
theorem sql_onObject (direction : Direction) (grant : Grant) :
    (direction.statement (.onObject grant)).sql = direction.opening ++ grant.privilege.verb ++
      " ON " ++ grant.kind.keyword ++ " " ++ grant.privilege.object ++ direction.linking ++
        quote grant.role ++ ";" := by
  cases direction <;> rfl

/-- If the object is read as `ts`, then the whole statement is read with `ts` in its place. -/
theorem reads_sql_onObject (direction : Direction) (grant : Grant)
    (hverb : isWord grant.privilege.verb.toList = true)
    (hobject : Reads (grant.privilege.object.toList ++ [' ']) ts) :
    Reads (direction.statement (.onObject grant)).sql.toList
      (direction.objectTokens grant.privilege.verb grant.kind ts grant.role ++ [.mark ';']) := by
  obtain ⟨spelled, hlinking, hlink⟩ := reads_linking direction
  have hon : Reads "ON ".toList [.word "on"] := fun rest => rfl
  have hkind := reads_word (isWord_keyword grant.kind).1
  have hall := (((((reads_opening direction).append (reads_word hverb)).append hon).append
    hkind).append hobject).append (hlink.append (reads_lastRole grant.role))
  have honText : " ON ".toList = ' ' :: "ON ".toList := rfl
  have hblank : " ".toList = [' '] := rfl
  have hend : ";".toList = [';'] := rfl
  simpa only [sql_onObject, String.toList_append, honText, hblank, hend, hlinking,
    List.append_assoc, List.cons_append, List.nil_append, Direction.objectTokens, keywordToken]
    using hall

/-- Granting and revoking on future objects have one text, but for the words of the direction. -/
theorem sql_onFuture (direction : Direction) (grant : DefaultGrant) :
    (direction.statement (.onFuture grant)).sql =
      "SET ROLE " ++ quote grant.privilege.grantor ++ ";\n" ++
        "ALTER DEFAULT PRIVILEGES IN SCHEMA " ++ render grant.privilege.schema ++ " " ++
        (direction.opening ++ grant.privilege.verb ++ " ON " ++ grant.kind.pluralKeyword ++
          direction.linking ++ quote grant.role) ++ ";\nRESET ROLE;" := by
  cases direction <;> rfl

/-- The three commands are read one after the other, each up to its semicolon. -/
theorem reads_sql_onFuture (direction : Direction) (grant : DefaultGrant)
    (hverb : isWord grant.privilege.verb.toList = true) :
    Reads (direction.statement (.onFuture grant)).sql.toList
      ([.word "set", .word "role", .quoted grant.privilege.grantor, .mark ';'] ++
        direction.futureTokens grant.privilege.verb grant.kind grant.privilege.schema grant.role ++
        [.mark ';', .word "reset", .word "role", .mark ';']) := by
  obtain ⟨spelled, hlinking, hlink⟩ := reads_linking direction
  have hset : Reads "SET ROLE ".toList [.word "set", .word "role"] := fun rest => rfl
  have halter : Reads ('\n' :: "ALTER DEFAULT PRIVILEGES IN SCHEMA ".toList)
      [.word "alter", .word "default", .word "privileges", .word "in", .word "schema"] :=
    fun rest => rfl
  have hon : Reads "ON ".toList [.word "on"] := fun rest => rfl
  have hreset : Reads "\nRESET ROLE;".toList [.word "reset", .word "role", .mark ';'] :=
    fun rest => rfl
  have hfront := ((hset.append (reads_lastRole grant.privilege.grantor)).append halter).append
    (reads_render grant.privilege.schema)
  have hchange := (((reads_opening direction).append (reads_word hverb)).append hon).append
    (reads_word (isWord_keyword grant.kind).2)
  have hall := ((hfront.append hchange).append
    (hlink.append (reads_lastRole grant.role))).append hreset
  have honText : " ON ".toList = ' ' :: "ON ".toList := rfl
  have hblank : " ".toList = [' '] := rfl
  have hbreak : ";\n".toList = [';', '\n'] := rfl
  have hend : ";\nRESET ROLE;".toList = ';' :: "\nRESET ROLE;".toList := rfl
  simpa only [sql_onFuture, String.toList_append, honText, hblank, hbreak, hend, hlinking,
    List.append_assoc, List.cons_append, List.nil_append, Direction.futureTokens, keywordToken]
    using hall

/-! ## Commands of statements -/

/-- Runs of tokens that each end in a semicolon are split where they were joined. -/
theorem splitOn_ended {parts : List (List Token)}
    (h : ∀ part ∈ parts, part ≠ [] ∧ .mark ';' ∉ part) :
    ((parts.flatMap (· ++ [.mark ';'])).splitOn (.mark ';')).filter (· ≠ []) = parts := by
  induction parts with
  | nil => rfl
  | cons part parts ih =>
    obtain ⟨⟨hne, hmark⟩, hrest⟩ := List.forall_mem_cons.1 h
    rw [List.flatMap_cons, List.append_assoc, List.singleton_append,
      List.splitOn_append_cons_self_of_not_mem hmark, List.filter_cons_of_pos (by simpa using hne),
      ih hrest]

/-- A text that is read as some parts, each with a semicolon behind it and none within, consists of
these commands. -/
theorem commands_of_reads {text : String} {parts : List (List Token)}
    (h : Reads text.toList (parts.flatMap (· ++ [.mark ';'])))
    (hparts : ∀ part ∈ parts, part ≠ [] ∧ .mark ';' ∉ part) : commands text = parts := by
  rw [commands, tokens, h.tokensFrom_eq, splitOn_ended hparts]

/-- Both tokens that an identifier may be read as stand for the identifier. -/
theorem name?_identifierToken (s : String) : (identifierToken s).name? = some s := by
  unfold identifierToken
  split
  next h =>
    have hreserved : isReserved s = false := by simpa using (Bool.and_eq_true_iff.1 h).2
    rw [Token.name?, hreserved]
    rfl
  next => rfl

/-- A name is read back from its tokens, however many parts it has, when a word follows. -/
theorem readName?_nameTokens (name : ObjectName) (word : String) (rest : List Token) :
    readName? (nameTokens name ++ .word word :: rest) = some (name, .word word :: rest) := by
  obtain ⟨schema, object?⟩ := name
  have hquoted : ∀ object, (Token.quoted object).name? = some object := fun _ => rfl
  cases object? with
  | none => simp [nameTokens, readName?, name?_identifierToken]
  | some object => simp [nameTokens, readName?, name?_identifierToken, hquoted]

theorem mark_notMem_nameTokens (name : ObjectName) : .mark ';' ∉ nameTokens name := by
  have hidentifier : ∀ s, identifierToken s ≠ .mark ';' := by
    intro s heq
    have := name?_identifierToken s
    rw [heq] at this
    cases this
  obtain ⟨schema, object?⟩ := name
  cases object? <;> simp [nameTokens, (hidentifier schema).symm]

/-- Keywords of kinds and verbs are read back. -/
theorem verb_spelled {access : Access} (h : verb ∈ kind.verbs access) :
    isWord verb.toList = true ∧ capitals (fold verb.toList) = verb := by
  have hall : ∀ v ∈ kind.verbs access, isWord v.toList = true ∧ capitals (fold v.toList) = v := by
    cases kind <;> cases access <;> decide
  exact hall verb h

/-- A kind is found by its keyword in lower case, in the singular and in the plural. -/
theorem kindOf?_keyword (kind : ObjectKind) :
    kindOf? ObjectKind.keyword (fold kind.keyword.toList) = some kind ∧
      kindOf? ObjectKind.pluralKeyword (fold kind.pluralKeyword.toList) = some kind := by
  cases kind <;> decide

theorem ofWord?_word (direction : Direction) :
    Direction.ofWord? direction.word = some direction := by
  cases direction <;> rfl

theorem readRole?_link (direction : Direction) (role : String) :
    direction.readRole? [.word direction.link, .quoted role] = some role := by
  rw [Direction.readRole?, if_pos rfl, Token.name?]

/-- A command is read back from its tokens, on an existing object. Verbs come back in capitals. -/
theorem ofTokens?_objectTokens (direction : Direction) (kind : ObjectKind) (name : ObjectName)
    (role : String) (hverb : capitals (fold verb.toList) = verb) :
    Command.ofTokens? (direction.objectTokens verb kind (nameTokens name) role) =
      some (.onObject direction verb kind name role) := by
  have hform : Command.ofTokens? (direction.objectTokens verb kind (nameTokens name) role) = do
      let direction' ← Direction.ofWord? direction.word
      let kind' ← kindOf? ObjectKind.keyword (fold kind.keyword.toList)
      let (name', rest) ← readName? (nameTokens name ++ [.word direction.link, .quoted role])
      return .onObject direction' (capitals (fold verb.toList)) kind' name'
        (← direction'.readRole? rest) := by
    cases direction <;> rfl
  rw [hform, ofWord?_word, (kindOf?_keyword kind).1, readName?_nameTokens, hverb]
  show (do return Command.onObject direction verb kind name (← direction.readRole? _)) = _
  rw [readRole?_link]
  rfl

/-- A command is read back from its tokens, on future objects. -/
theorem ofTokens?_futureTokens (direction : Direction) (kind : ObjectKind) (schema role : String)
    (hverb : capitals (fold verb.toList) = verb) :
    Command.ofTokens? (direction.futureTokens verb kind schema role) =
      some (.onFuture direction verb kind schema role) := by
  have hform : Command.ofTokens? (direction.futureTokens verb kind schema role) = do
      let direction' ← Direction.ofWord? direction.word
      let kind' ← kindOf? ObjectKind.pluralKeyword (fold kind.pluralKeyword.toList)
      return .onFuture direction' (capitals (fold verb.toList)) kind'
        (← (identifierToken schema).name?)
        (← direction'.readRole? [.word direction.link, .quoted role]) := by
    cases direction <;> rfl
  rw [hform, ofWord?_word, (kindOf?_keyword kind).2, hverb, name?_identifierToken]
  show (do return Command.onFuture direction verb kind schema (← direction.readRole? _)) = _
  rw [readRole?_link]
  rfl

/-- A managed statement about an existing object means what its text is read as. -/
theorem readCommands?_onObject (direction : Direction) {grant : Grant} {access : Access}
    (hverb : grant.privilege.verb ∈ grant.kind.verbs access) (hcanonical : grant.IsCanonical)
    (hkind : grant.kind ≠ .functions) :
    readCommands? (direction.statement (.onObject grant)).sql =
      some (direction.statement (.onObject grant)).commands := by
  obtain ⟨hword, hcapitals⟩ := verb_spelled hverb
  have hreads := reads_sql_onObject direction grant hword (reads_object hcanonical hkind)
  have hparts : ∀ part ∈ [direction.objectTokens grant.privilege.verb grant.kind
      (nameTokens (ObjectName.ofText grant.privilege.object)) grant.role],
      part ≠ [] ∧ .mark ';' ∉ part := by
    simp [Direction.objectTokens, keywordToken, mark_notMem_nameTokens]
  rw [readCommands?, commands_of_reads (by simpa using hreads) hparts, List.mapM_cons,
    ofTokens?_objectTokens direction grant.kind _ grant.role hcapitals, commands_onObject]
  rfl

/-- A managed statement about future objects means what its text is read as. -/
theorem readCommands?_onFuture (direction : Direction) {grant : DefaultGrant} {access : Access}
    (hverb : grant.privilege.verb ∈ grant.kind.verbs access) :
    readCommands? (direction.statement (.onFuture grant)).sql =
      some (direction.statement (.onFuture grant)).commands := by
  obtain ⟨hword, hcapitals⟩ := verb_spelled hverb
  have hreads := reads_sql_onFuture direction grant hword
  have hidentifier : identifierToken grant.privilege.schema ≠ .mark ';' := by
    have := mark_notMem_nameTokens ⟨grant.privilege.schema, none⟩
    simpa [nameTokens, eq_comm] using this
  have hparts : ∀ part ∈ [[.word "set", .word "role", .quoted grant.privilege.grantor],
      direction.futureTokens grant.privilege.verb grant.kind grant.privilege.schema grant.role,
      [.word "reset", .word "role"]], part ≠ [] ∧ .mark ';' ∉ part := by
    simp [Direction.futureTokens, keywordToken, hidentifier.symm]
  rw [readCommands?, commands_of_reads (by simpa using hreads) hparts, List.mapM_cons,
    List.mapM_cons, ofTokens?_futureTokens direction grant.kind _ grant.role hcapitals,
    commands_onFuture]
  rfl

end Sql

/-! ## Statements of plans -/

variable {spec : Spec} {catalog : Catalog} {statements : List Statement} {s : Statement}

/-- A statement of a plan that is no note changes an entitlement that the spec manages. -/
theorem exists_statement_of_mem_plan (hplan : plan spec catalog = .ok statements)
    (hs : s ∈ statements) (hchange : s.isChange = true) :
    ∃ direction e, s = Direction.statement direction e ∧ spec.Manages catalog e := by
  obtain ⟨e, rfl | rfl⟩ := Statement.exists_entitlement hchange
  · exact ⟨.give, e, rfl, ((award_mem_plan_iff hplan).1 hs).1.manages⟩
  · exact ⟨.take, e, rfl, ((withdraw_mem_plan_iff hplan).1 hs).1⟩

/-- A plan names objects canonically, also those on which it revokes something, for whatever has
happened to the catalog. -/
theorem isCanonical_of_mem_plan (hcatalog : catalog.Reachable)
    (hplan : plan spec catalog = .ok statements) {direction : Direction} {grant : Grant}
    (hs : direction.statement (.onObject grant) ∈ statements) : grant.IsCanonical := by
  cases direction with
  | give => exact ((award_mem_plan_iff hplan (e := .onObject grant)).1 hs).1.isCanonical
  | take =>
    exact hcatalog.canonical grant ((withdraw_mem_plan_iff hplan (e := .onObject grant)).1 hs).2.2

theorem kind_ne_functions {direction : Direction} {grant : Grant}
    (h : (direction.statement (.onObject grant)).namesFunction = false) :
    grant.kind ≠ .functions := by
  cases direction <;>
    simpa [Direction.statement, Entitlement.award, Entitlement.withdraw, Statement.namesFunction]
      using h

/-- The text of each change in a plan is read as what the change means. -/
theorem readCommands?_sql (hcatalog : catalog.Reachable)
    (hplan : plan spec catalog = .ok statements) (hs : s ∈ statements) (hchange : s.isChange = true)
    (hfunction : s.namesFunction = false) : readCommands? s.sql = some s.commands := by
  obtain ⟨direction, e, rfl, hmanages⟩ := exists_statement_of_mem_plan hplan hs hchange
  obtain ⟨access, hverb⟩ := hmanages.verb_mem
  cases e with
  | onObject grant =>
    exact readCommands?_onObject direction hverb (isCanonical_of_mem_plan hcatalog hplan hs)
      (kind_ne_functions hfunction)
  | onFuture grant => exact readCommands?_onFuture direction hverb

/-- Statements that name objects canonically are told apart by what they mean. -/
theorem statement_eq_of_commands_eq {direction direction' : Direction} {e e' : Entitlement}
    (he : ∀ grant, e = .onObject grant → grant.IsCanonical)
    (he' : ∀ grant, e' = .onObject grant → grant.IsCanonical)
    (h : (direction.statement e).commands = (direction'.statement e').commands) :
    direction.statement e = direction'.statement e' := by
  cases e with
  | onObject grant =>
    cases e' with
    | onObject grant' =>
      obtain ⟨role, kind, object, verb⟩ := grant
      obtain ⟨role', kind', object', verb'⟩ := grant'
      have hobject : (ObjectName.ofText object).render kind = object := he _ rfl
      have hobject' : (ObjectName.ofText object').render kind' = object' := he' _ rfl
      simp only [commands_onObject, List.cons.injEq, Command.onObject.injEq, and_true] at h
      obtain ⟨rfl, rfl, rfl, hname, rfl⟩ := h
      obtain rfl : object = object' := by rw [← hobject, hname, hobject']
      rfl
    | onFuture grant' => simp [commands_onObject, commands_onFuture] at h
  | onFuture grant =>
    cases e' with
    | onObject grant' => simp [commands_onObject, commands_onFuture] at h
    | onFuture grant' =>
      obtain ⟨role, kind, grantor, schema, verb⟩ := grant
      obtain ⟨role', kind', grantor', schema', verb'⟩ := grant'
      simp only [commands_onFuture, List.cons.injEq, Command.setRole.injEq,
        Command.onFuture.injEq, and_true] at h
      obtain ⟨rfl, rfl, rfl, rfl, rfl, rfl⟩ := h
      rfl

/-- The text of a statement is read back as one command, or for future objects as three: their verb,
kind, names and roles are those of the statement. So no other statement of any plan has its text. -/
theorem plan_sql_reads_back (hcatalog : catalog.Reachable)
    (hplan : plan spec catalog = .ok statements) (hs : s ∈ statements) (hchange : s.isChange = true)
    (hfunction : s.namesFunction = false) :
    readCommands? s.sql = some s.commands ∧
    ∀ spec' catalog' statements' s', catalog'.Reachable → plan spec' catalog' = .ok statements' →
      s' ∈ statements' → s'.isChange = true → s'.namesFunction = false → s'.sql = s.sql →
        s' = s := by
  have hreads := readCommands?_sql hcatalog hplan hs hchange hfunction
  refine ⟨hreads, fun spec' catalog' statements' s' hcatalog' hplan' hs' hchange' hfunction' h => ?_⟩
  have hreads' := readCommands?_sql hcatalog' hplan' hs' hchange' hfunction'
  have hcommands : s'.commands = s.commands := by
    rw [h, hreads] at hreads'
    exact (Option.some.inj hreads').symm
  obtain ⟨direction, e, rfl, -⟩ := exists_statement_of_mem_plan hplan hs hchange
  obtain ⟨direction', e', rfl, -⟩ := exists_statement_of_mem_plan hplan' hs' hchange'
  refine statement_eq_of_commands_eq ?_ ?_ hcommands
  · rintro grant rfl
    exact isCanonical_of_mem_plan hcatalog' hplan' hs'
  · rintro grant rfl
    exact isCanonical_of_mem_plan hcatalog hplan hs

/-- A spec with a reserved word for a schema, and with marks and a line break in its roles. -/
def oddSpec : Spec :=
  let reads : OrderedMap Access (List String) := .insert ∅ .read ["\"select\".*"]
  .ofList [("etl\n--", { RoleConfig.default with ownedSchemas := ["\"select\""] }),
    ("o\"; --", { RoleConfig.default with targets := .insert ∅ .tables reads })]

/-- A database with a table whose name holds a semicolon and a quote. -/
def oddCatalog : Catalog := (∅ : Catalog).addObject .tables "select" (some "a;\"b") "etl\n--"

def oddGrant : Statement := .grant "o\"; --" .tables ⟨"\"select\".\"a;\"\"b\"", "SELECT"⟩

def oddPlan : List Statement :=
  [oddGrant, .grantDefault "o\"; --" .tables ⟨"etl\n--", "select", "SELECT"⟩]

theorem plan_odd : plan oddSpec oddCatalog = .ok oddPlan := by rfl

theorem plan_sql_reads_back_odd :
    oddCatalog.Reachable ∧ plan oddSpec oddCatalog = .ok oddPlan ∧ oddGrant ∈ oddPlan ∧
    oddGrant.isChange = true ∧ oddGrant.namesFunction = false ∧
    readCommands? oddGrant.sql =
      some [.onObject .give "SELECT" .tables ⟨"select", some "a;\"b"⟩ "o\"; --"] ∧
    ∀ spec catalog statements s, catalog.Reachable → plan spec catalog = .ok statements →
      s ∈ statements → s.isChange = true → s.namesFunction = false → s.sql = oddGrant.sql →
        s = oddGrant := by
  have hcatalog : oddCatalog.Reachable := .addObject .empty _ _ _ _
  have hmem : oddGrant ∈ oddPlan := List.mem_cons_self
  have hmeaning : oddGrant.commands =
      [.onObject .give "SELECT" .tables ⟨"select", some "a;\"b"⟩ "o\"; --"] := by decide
  have h := plan_sql_reads_back hcatalog plan_odd hmem rfl rfl
  exact ⟨hcatalog, plan_odd, hmem, rfl, rfl, hmeaning ▸ h.1, h.2⟩

end GrantPlan
