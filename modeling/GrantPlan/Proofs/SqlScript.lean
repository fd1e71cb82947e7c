import GrantPlan.Script
import GrantPlan.Proofs.SqlCommand
/-!
# Scripts as commands

A script is read line by line, as long as no statement leaves a quote open at its end
(`tokens_script`). Then a note, which is a comment, adds no command to those of the changes
(`notes_execute_nothing`).

A comment ends with its line. The role in a note is spelled between quotes, and they do not keep a
line break from ending the comment (`note_executes`).
-/

namespace GrantPlan

open Sql Identifier

variable {spec : Spec} {catalog : Catalog} {statements : List Statement} {s : Statement}

/-! ## Lines of a script -/

theorem sql_note (role : String) : (Statement.skipSuperuser role).sql =
    "-- Skipping privilege configuration for superuser " ++ quote role := by
  rfl

/-- No statement ends in an empty line. -/
theorem Statement.exists_last (s : Statement) :
    ∃ front c, s.sql.toList = front ++ [c] ∧ c ≠ '\n' := by
  have hsemicolon : ∀ text, ∃ front c, (text ++ ";").toList = front ++ [c] ∧ c ≠ '\n' :=
    fun text => ⟨text.toList, ';', String.toList_append, by decide⟩
  have hreset : ∀ text, ∃ front c,
      (text ++ ";\nRESET ROLE;").toList = front ++ [c] ∧ c ≠ '\n' := by
    intro text
    have hend : ";\nRESET ROLE;".toList = ";\nRESET ROLE".toList ++ [';'] := by decide
    refine ⟨text.toList ++ ";\nRESET ROLE".toList, ';', ?_, by decide⟩
    rw [String.toList_append, List.append_assoc, ← hend]
  cases s with
  | grant => exact hsemicolon _
  | revoke => exact hsemicolon _
  | grantDefault => exact hreset _
  | revokeDefault => exact hreset _
  | skipSuperuser role =>
    exact ⟨"-- Skipping privilege configuration for superuser ".toList ++ '"' :: doubled role.toList,
      '"', by simp [sql_note, quote], by decide⟩

theorem dropFinalNewlines_append {front : List Char} {c : Char} (h : c ≠ '\n') :
    dropFinalNewlines (front ++ [c] ++ ['\n']) = front ++ [c] := by
  simp [dropFinalNewlines, h]

theorem toList_script_append (statements : List Statement) (s : Statement) :
    (script (statements ++ [s])).toList =
      statements.flatMap (fun s => s.sql.toList ++ ['\n']) ++ s.sql.toList := by
  obtain ⟨front, c, hlast, hc⟩ := s.exists_last
  simp only [script, List.flatMap_append, List.flatMap_singleton, String.toList_ofList, hlast,
    ← List.append_assoc]
  exact dropFinalNewlines_append hc

theorem reads_lines (h : ∀ s ∈ statements, ClosesQuotes s.sql.toList) :
    Reads (statements.flatMap fun s => s.sql.toList ++ ['\n'])
      (statements.flatMap fun s => tokens s.sql) := by
  induction statements with
  | nil => exact fun rest => rfl
  | cons s statements ih =>
    obtain ⟨hs, hstatements⟩ := List.forall_mem_cons.1 h
    exact (reads_line hs).append (ih hstatements)

/-- The tokens of a script are those of its statements. -/
theorem tokens_script (h : ∀ s ∈ statements, ClosesQuotes s.sql.toList) :
    tokens (script statements) = statements.flatMap fun s => tokens s.sql := by
  rcases statements.eq_nil_or_concat' with rfl | ⟨front, s, rfl⟩
  · rfl
  · have hfront : ∀ s ∈ front, ClosesQuotes s.sql.toList :=
      fun s hs => h s (List.mem_append_left _ hs)
    rw [tokens, toList_script_append, reads_lines hfront, List.flatMap_append,
      List.flatMap_singleton, tokens]

/-! ## Notes -/

theorem mem_of_mem_doubled {c : Char} {cs : List Char} (h : c ∈ doubled cs) : c ∈ cs := by
  induction cs with
  | nil => exact h
  | cons d cs ih =>
    rw [doubled] at h
    split at h <;> grind

theorem not_isLineBreak_quote {role : String} (h : ∀ c ∈ role.toList, isLineBreak c = false) :
    ∀ c ∈ (quote role).toList, isLineBreak c = false := by
  intro c hc
  simp only [quote, String.toList_ofList, List.mem_append, List.mem_cons, List.not_mem_nil,
    or_false] at hc
  rcases hc with (rfl | hc) | rfl
  · rfl
  · exact h c (mem_of_mem_doubled hc)
  · rfl

/-- The text of a note is a comment as a whole. -/
theorem closesQuotes_note {role : String} (h : ∀ c ∈ role.toList, isLineBreak c = false) :
    ClosesQuotes (Statement.skipSuperuser role).sql.toList ∧
      tokens (Statement.skipSuperuser role).sql = [] := by
  obtain ⟨hmode, htokens⟩ := inComment_of_not_isLineBreak (not_isLineBreak_quote h)
  have hopening : "-- Skipping privilege configuration for superuser ".toList.foldl Mode.next
      .between = .inComment := rfl
  have hreads : ∀ rest, tokensFrom .between
      ("-- Skipping privilege configuration for superuser ".toList ++ rest) =
        tokensFrom .inComment rest := fun rest => rfl
  constructor
  · rw [ClosesQuotes, sql_note, String.toList_append, List.foldl_append, List.foldl_append,
      hopening, hmode]
    rfl
  · rw [tokens, sql_note, String.toList_append, hreads, htokens]

/-- Notes that are comments add no tokens to those of the changes. -/
theorem flatMap_tokens_changes
    (h : ∀ s ∈ statements, s.isChange = false → tokens s.sql = []) :
    ((statements.filter (·.isChange)).flatMap fun s => tokens s.sql) =
      statements.flatMap fun s => tokens s.sql := by
  induction statements with
  | nil => rfl
  | cons s statements ih =>
    obtain ⟨hs, hstatements⟩ := List.forall_mem_cons.1 h
    cases hchange : s.isChange with
    | false =>
      rw [List.filter_cons_of_neg (by simp [hchange]), List.flatMap_cons, hs hchange]
      exact ih hstatements
    | true =>
      rw [List.filter_cons_of_pos hchange, List.flatMap_cons, List.flatMap_cons, ih hstatements]

/-- A statement of a plan that names no function leaves no quote open. -/
theorem closesQuotes_of_mem_plan (hcatalog : catalog.Reachable)
    (hplan : plan spec catalog = .ok statements) (hs : s ∈ statements) (hchange : s.isChange = true)
    (hfunction : s.namesFunction = false) : ClosesQuotes s.sql.toList := by
  obtain ⟨direction, e, rfl, hmanages⟩ := exists_statement_of_mem_plan hplan hs hchange
  obtain ⟨access, hverb⟩ := hmanages.verb_mem
  have hword := (verb_spelled hverb).1
  cases e with
  | onObject grant =>
    have hobject := reads_object (isCanonical_of_mem_plan hcatalog hplan hs)
      (kind_ne_functions hfunction)
    exact (reads_sql_onObject direction grant hword hobject).closesQuotes
  | onFuture grant => exact (reads_sql_onFuture direction grant hword).closesQuotes

/-- Where no role of a note has a line break in it and no function has a quote open behind its
arguments, the commands of a script are those of the script without the notes. -/
theorem notes_execute_nothing (hplan : plan spec catalog = .ok statements)
    (hnotes : ∀ role, .skipSuperuser role ∈ statements →
      ∀ c ∈ role.toList, isLineBreak c = false)
    (hquotes : ∀ s ∈ statements, s.isChange = true →
      catalog.Reachable ∧ s.namesFunction = false ∨ ClosesQuotes s.sql.toList) :
    commands (script statements) = commands (script (statements.filter (·.isChange))) ∧
    ((∀ s ∈ statements, s.isChange = false) → commands (script statements) = []) := by
  have hnote : ∀ s ∈ statements, s.isChange = false →
      ClosesQuotes s.sql.toList ∧ tokens s.sql = [] := by
    intro s hs hchange
    cases s with
    | skipSuperuser role => exact closesQuotes_note (hnotes role hs)
    | _ => cases hchange
  have hclosed : ∀ s ∈ statements, ClosesQuotes s.sql.toList := by
    intro s hs
    cases hchange : s.isChange with
    | false => exact (hnote s hs hchange).1
    | true =>
      rcases hquotes s hs hchange with ⟨hcatalog, hfunction⟩ | hs'
      · exact closesQuotes_of_mem_plan hcatalog hplan hs hchange hfunction
      · exact hs'
  have htokens : tokens (script statements) =
      tokens (script (statements.filter (·.isChange))) := by
    rw [tokens_script hclosed, tokens_script fun s hs => hclosed s (List.mem_filter.1 hs).1,
      flatMap_tokens_changes fun s hs hchange => (hnote s hs hchange).2]
  have hcommands : commands (script statements) =
      commands (script (statements.filter (·.isChange))) := by
    rw [commands, htokens, commands]
  refine ⟨hcommands, fun hall => ?_⟩
  have hfilter : statements.filter (·.isChange) = [] := by simpa using hall
  rw [hcommands, hfilter]
  rfl

theorem notes_execute_nothing_ledger :
    plan ledgerSpec ledgerCatalog = .ok ledgerPlan ∧ ledgerCatalog.Reachable ∧
    (∀ role, .skipSuperuser role ∈ ledgerPlan → ∀ c ∈ role.toList, isLineBreak c = false) ∧
    (∀ s ∈ ledgerPlan, s.namesFunction = false) ∧
    commands (script ledgerPlan) = commands (script (ledgerPlan.drop 1)) := by
  have hcatalog := Catalog.reachable_ledgerCatalog
  have hnotes : ∀ role, .skipSuperuser role ∈ ledgerPlan →
      ∀ c ∈ role.toList, isLineBreak c = false := by
    intro role hrole
    obtain rfl : role = "postgres" := by simpa [ledgerPlan] using hrole
    have hline : "postgres".toList.all (isLineBreak · = false) = true := by decide
    simpa using hline
  have hfunctions : ∀ s ∈ ledgerPlan, s.namesFunction = false := by decide
  have h := notes_execute_nothing plan_ledger hnotes
    fun s hs _ => .inl ⟨hcatalog, hfunctions s hs⟩
  exact ⟨plan_ledger, hcatalog, hnotes, hfunctions, h.1⟩

/-- A quote among the arguments of a function hides the note from the reader: it becomes part of a
name. -/
example :
    let grant := Statement.grant "etl" .functions ⟨"finance.\"f\"(\")", "EXECUTE"⟩
    ¬ ClosesQuotes grant.sql.toList ∧
    commands (script [grant, .skipSuperuser "ops"]) ≠ commands (script [grant]) := by
  decide +kernel

/-- The spec for a superuser with a line break in its name. -/
def brokenLineSpec : Spec := .ofList [("ops\nDROP TABLE ledger; --", .default)]

def brokenLineCatalog : Catalog := (∅ : Catalog).addSuperuser "ops\nDROP TABLE ledger; --"

/-- The plan is a single note, and its script drops a table. -/
theorem note_executes :
    plan brokenLineSpec brokenLineCatalog = .ok [.skipSuperuser "ops\nDROP TABLE ledger; --"] ∧
    commands (script [.skipSuperuser "ops\nDROP TABLE ledger; --"]) =
      [[.word "drop", .word "table", .word "ledger"]] ∧
    commands (script ([.skipSuperuser "ops\nDROP TABLE ledger; --"].filter (·.isChange))) = [] := by
  refine ⟨rfl, ?_, ?_⟩ <;> decide +kernel

end GrantPlan
