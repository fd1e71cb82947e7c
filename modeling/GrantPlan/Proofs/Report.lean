import GrantPlan.Report
import Mathlib.Data.List.Induction
/-!
# What a report says of a plan

A report is made in one pass, which counts the statements under their roles as they come. The same
numbers can be counted for one role at a time (`changesOf`), with the roles in the order of their
first change (`changedRoles`).

After any part of a plan the pass has just these counts in just this order (`changes_ofStatements`).
So the text of a report can be written down from the plan alone (`report_counts`), in whatever order
the roles and the forms of statements come.
-/

namespace GrantPlan

variable {statements : List Statement} {statement : Statement} {role : String}

/-! ## Counting for one role at a time -/

/-- How many changes of each form some statements make for a role. -/
def changesOf (statements : List Statement) (role : String) : ChangeCounts where
  grants := statements.countP fun | .grant r .. => r = role | _ => false
  revokes := statements.countP fun | .revoke r .. => r = role | _ => false
  defaultGrants := statements.countP fun | .grantDefault r .. => r = role | _ => false
  defaultRevokes := statements.countP fun | .revokeDefault r .. => r = role | _ => false

/-- The roles that some statements change, in the order of their first changes. -/
def changedRoles (statements : List Statement) : List String :=
  ((statements.filter Statement.isChange).map Statement.role).eraseDups

/-- The place of the first change of a role. -/
def firstChange (statements : List Statement) (role : String) : Nat :=
  statements.findIdx fun s => s.isChange && s.role = role

/-- The superusers that some statements note, in order. -/
def notedRoles (statements : List Statement) : List String :=
  (statements.filter fun s => !s.isChange).map Statement.role

/-- The changes that counts add up to. -/
def ChangeCounts.total (counts : ChangeCounts) : Nat :=
  counts.grants + counts.revokes + counts.defaultGrants + counts.defaultRevokes

/-- The changes that the rows of a table add up to. -/
def ChangeCounts.totals (rows : List (String × ChangeCounts)) : Nat :=
  rows.foldr (fun row sum => row.2.total + sum) 0

/-- One more statement counts for its own role and for no other. -/
theorem changesOf_concat :
    changesOf (statements ++ [statement]) role =
      if statement.role = role then (changesOf statements role).count statement
      else changesOf statements role := by
  by_cases hrole : statement.role = role
  · cases statement <;> simp_all [changesOf, ChangeCounts.count, Statement.role]
  · cases statement <;> simp_all [changesOf, Statement.role]

/-- A role has a row when some change is for it. -/
theorem mem_changedRoles_iff :
    role ∈ changedRoles statements ↔ ∃ s ∈ statements, s.isChange = true ∧ s.role = role := by
  simp only [changedRoles, List.mem_eraseDups, List.mem_map, List.mem_filter, and_assoc]

/-- A role without a row has no changes. -/
theorem changesOf_eq_zero (h : role ∉ changedRoles statements) :
    changesOf statements role = .zero := by
  have hnone : ∀ s ∈ statements, s.isChange = true → s.role ≠ role := fun s hs hchange heq =>
    h (mem_changedRoles_iff.2 ⟨s, hs, hchange, heq⟩)
  simp only [changesOf, ChangeCounts.zero, ChangeCounts.mk.injEq, List.countP_eq_zero]
  refine ⟨?_, ?_, ?_, ?_⟩
  all_goals
    intro s hs
    have hs := hnone s hs
    cases s <;> simp_all [Statement.isChange, Statement.role]

/-- Only the first change of a role adds the role. -/
theorem changedRoles_concat :
    changedRoles (statements ++ [statement]) =
      if statement.isChange = true ∧ statement.role ∉ changedRoles statements then
        changedRoles statements ++ [statement.role]
      else changedRoles statements := by
  by_cases hchange : statement.isChange = true
  · by_cases hknown : statement.role ∈ (statements.filter Statement.isChange).map Statement.role
    · simp [changedRoles, List.eraseDups_append, List.removeAll, hchange, hknown]
    · simp [changedRoles, List.eraseDups_append, List.removeAll, hchange, hknown,
        List.eraseDups_cons]
  · simp [changedRoles, hchange]

/-! ## The order of rows -/

theorem firstChange_lt_iff :
    firstChange statements role < statements.length ↔ role ∈ changedRoles statements := by
  simp [firstChange, List.findIdx_lt_length, mem_changedRoles_iff]

/-- Later statements do not move the first change of a role. -/
theorem firstChange_append_of_mem (h : role ∈ changedRoles statements) (later : List Statement) :
    firstChange (statements ++ later) role = firstChange statements role := by
  have hlt := firstChange_lt_iff.2 h
  unfold firstChange at hlt ⊢
  rw [List.findIdx_append, if_pos hlt]

/-- Roles come in the order of the statements that change them first. -/
theorem pairwise_changedRoles (statements : List Statement) :
    (changedRoles statements).Pairwise (firstChange statements · < firstChange statements ·) := by
  induction statements using List.reverseRecOn with
  | nil => exact .nil
  | append_singleton statements s ih =>
    -- the roles there were keep their places
    have hkept : (changedRoles statements).Pairwise
        (firstChange (statements ++ [s]) · < firstChange (statements ++ [s]) ·) := by
      refine ih.imp_of_mem fun {r r'} hr hr' hlt => ?_
      rwa [firstChange_append_of_mem hr, firstChange_append_of_mem hr']
    rw [changedRoles_concat]
    split
    next hnew =>
      refine List.pairwise_append.2 ⟨hkept, List.pairwise_singleton _ _, fun r hr r' hr' => ?_⟩
      obtain rfl := List.mem_singleton.1 hr'
      have hbefore : firstChange statements r < statements.length := firstChange_lt_iff.2 hr
      have hbehind : ¬ firstChange statements s.role < statements.length :=
        fun hlt => hnew.2 (firstChange_lt_iff.1 hlt)
      rw [firstChange_append_of_mem hr]
      unfold firstChange at hbefore hbehind ⊢
      rw [List.findIdx_append, if_neg hbehind]
      omega
    next => exact hkept

/-! ## The pass -/

/-- Counting a change under its role touches the row of that role only, or adds it as the last. -/
theorem countUnder_map {roles : List String} {counts : String → ChangeCounts}
    (hnodup : roles.Nodup) (hzero : statement.role ∉ roles → counts statement.role = .zero) :
    Tally.countUnder statement (roles.map fun role => (role, counts role)) =
      (if statement.role ∈ roles then roles else roles ++ [statement.role]).map fun role =>
        (role, if statement.role = role then (counts role).count statement else counts role) := by
  induction roles with
  | nil => simp [Tally.countUnder, hzero]
  | cons r roles ih =>
    obtain ⟨hr, hroles⟩ := List.nodup_cons.1 hnodup
    rw [List.map_cons, Tally.countUnder]
    by_cases hrole : r = statement.role
    · -- this is the row, and there is no other of that role behind it
      have hrest : ∀ role ∈ roles, statement.role ≠ role := fun role hmem heq =>
        hr (hrole ▸ heq ▸ hmem)
      subst hrole
      simp +contextual [hrest]
    · have hrest : statement.role ∉ roles → counts statement.role = .zero := fun hmem =>
        hzero (by simp [Ne.symm hrole, hmem])
      rw [if_neg hrole, ih hroles hrest]
      by_cases hmem : statement.role ∈ roles <;> simp [hmem, Ne.symm hrole]

theorem nodup_changedRoles (statements : List Statement) : (changedRoles statements).Nodup :=
  (pairwise_changedRoles statements).imp fun hlt heq => Nat.ne_of_lt hlt (congrArg _ heq)

/-- The pass takes one statement at a time, so the last one is added to what the others give. -/
theorem ofStatements_concat :
    Tally.ofStatements (statements ++ [statement]) =
      (Tally.ofStatements statements).add statement := by
  rw [Tally.ofStatements, List.foldl_append]
  rfl

/-- The pass has counted for each role what the statements so far change for it. -/
theorem changes_ofStatements (statements : List Statement) :
    (Tally.ofStatements statements).changes =
      (changedRoles statements).map fun role => (role, changesOf statements role) := by
  induction statements using List.reverseRecOn with
  | nil => rfl
  | append_singleton statements s ih =>
    rw [ofStatements_concat, Tally.add]
    split
    next hchange =>
      rw [ih, countUnder_map (nodup_changedRoles statements) changesOf_eq_zero,
        changedRoles_concat]
      by_cases hknown : s.role ∈ changedRoles statements <;>
        simp [hchange, hknown, changesOf_concat]
    next hnote =>
      -- a note is no change of any form
      have hcounts : ∀ counts : ChangeCounts, counts.count s = counts := by
        cases s <;> simp_all [Statement.isChange, ChangeCounts.count]
      simp [ih, changedRoles_concat, changesOf_concat, hcounts, hnote]

/-- The roles that the pass notes down are those of the notes, in order. -/
theorem superusers_ofStatements (statements : List Statement) :
    (Tally.ofStatements statements).superusers = notedRoles statements := by
  induction statements using List.reverseRecOn with
  | nil => rfl
  | append_singleton statements s ih =>
    rw [ofStatements_concat, Tally.add]
    split
    next hchange => simp [ih, notedRoles, hchange]
    next hnote => simp [ih, notedRoles, hnote]

/-! ## What the numbers add up to -/

/-- A change counts once. -/
theorem totals_countUnder (hchange : statement.isChange = true)
    (rows : List (String × ChangeCounts)) :
    ChangeCounts.totals (Tally.countUnder statement rows) = ChangeCounts.totals rows + 1 := by
  have hcount : ∀ counts : ChangeCounts, (counts.count statement).total = counts.total + 1 := by
    intro counts
    cases statement with
    | skipSuperuser => simp [Statement.isChange] at hchange
    | grant | revoke | grantDefault | revokeDefault =>
      simp only [ChangeCounts.count, ChangeCounts.total]
      omega
  unfold ChangeCounts.totals
  induction rows with
  | nil =>
    have hzero : ChangeCounts.zero.total = 0 := rfl
    simp [Tally.countUnder, hcount, hzero]
  | cons row rows ih =>
    obtain ⟨role, counts⟩ := row
    rw [Tally.countUnder]
    split
    · simp only [List.foldr_cons, hcount]
      omega
    · simp only [List.foldr_cons, ih]
      omega

/-- The totals add up to the number of changes. -/
theorem totals_changes (statements : List Statement) :
    ChangeCounts.totals (Tally.ofStatements statements).changes =
      statements.countP Statement.isChange := by
  induction statements using List.reverseRecOn with
  | nil => rfl
  | append_singleton statements s ih =>
    rw [ofStatements_concat, Tally.add]
    split
    next hchange => simp [totals_countUnder hchange, ih, hchange]
    next hnote => simp [ih, hnote]

/-! ## The text -/

/-- A row of a table. -/
def tableRow (cells : List String) : String := "| " ++ " | ".intercalate cells ++ " |"

/-- The table of the changes that statements make, by lines. -/
def changeTable (statements : List Statement) : List String :=
  [tableRow ["Role", "Grants", "Revokes", "Default grants", "Default revokes"],
    "|------|--------|---------|----------------|-----------------|"] ++
  (changedRoles statements).map fun role =>
    let counts := changesOf statements role
    tableRow (role :: [counts.grants, counts.revokes, counts.defaultGrants,
      counts.defaultRevokes].map toString)

/-- The lines of a report, by what there is to say. -/
def reportLines (statements : List Statement) : List String :=
  ["# privsync Plan Report", ""] ++
  (if ∃ s ∈ statements, s.isChange = true then ["## Changes", ""] ++ changeTable statements
    else ["No privilege changes required."]) ++
  if ∃ s ∈ statements, s.isChange = false then
    ["", "## Skipped superusers", ""] ++ (notedRoles statements).map ("- " ++ ·)
  else []

theorem row_eq_tableRow (role : String) (counts : ChangeCounts) :
    Tally.row (role, counts) = tableRow (role :: [counts.grants, counts.revokes,
      counts.defaultGrants, counts.defaultRevokes].map toString) := by
  have hcells : " | ".intercalate (role :: [counts.grants, counts.revokes, counts.defaultGrants,
      counts.defaultRevokes].map toString) = role ++ " | " ++ toString counts.grants ++ " | " ++
        toString counts.revokes ++ " | " ++ toString counts.defaultGrants ++ " | " ++
        toString counts.defaultRevokes := rfl
  rw [tableRow, hcells, Tally.row]
  simp only [String.append_assoc]

/-- The first section is the table of counts, or one line where there is no change. -/
theorem changeLines_ofStatements (statements : List Statement) :
    Tally.changeLines (Tally.ofStatements statements).changes =
      if ∃ s ∈ statements, s.isChange = true then ["## Changes", ""] ++ changeTable statements
      else ["No privilege changes required."] := by
  have hempty : (Tally.ofStatements statements).changes.isEmpty = true ↔
      ¬ ∃ s ∈ statements, s.isChange = true := by
    rw [changes_ofStatements, List.isEmpty_iff, List.map_eq_nil_iff,
      List.eq_nil_iff_forall_not_mem]
    simp only [mem_changedRoles_iff, not_exists]
    exact ⟨fun h s hs => h s.role s ⟨hs.1, hs.2, rfl⟩, fun h role s hs => h s ⟨hs.1, hs.2.1⟩⟩
  unfold Tally.changeLines
  by_cases hsome : ∃ s ∈ statements, s.isChange = true
  · rw [if_neg (mt hempty.1 (not_not.2 hsome)), if_pos hsome, changes_ofStatements, changeTable,
      List.map_map]
    refine congrArg _ (List.map_congr_left fun role _ => ?_)
    exact row_eq_tableRow role _
  · rw [if_pos (hempty.2 hsome), if_neg hsome]

/-- The second section is there if there is a note, and lists the roles of the notes. -/
theorem superuserLines_ofStatements (statements : List Statement) :
    Tally.superuserLines (Tally.ofStatements statements).superusers =
      if ∃ s ∈ statements, s.isChange = false then
        ["", "## Skipped superusers", ""] ++ (notedRoles statements).map ("- " ++ ·)
      else [] := by
  have hempty : (notedRoles statements).isEmpty = true ↔
      ¬ ∃ s ∈ statements, s.isChange = false := by
    simp [notedRoles]
  rw [superusers_ofStatements, Tally.superuserLines]
  by_cases hsome : ∃ s ∈ statements, s.isChange = false
  · rw [if_neg (mt hempty.1 (not_not.2 hsome)), if_pos hsome]
  · rw [if_pos (hempty.2 hsome), if_neg hsome]

/-- The report of a plan, whatever is in the plan: the lines that follow from counting for one role
at a time. The roles of the table are those with a change, in the order of their first changes, and
its numbers add up to the changes of the plan. -/
theorem report_counts (statements : List Statement) :
    report statements = String.join ((reportLines statements).map (· ++ "\n")) ∧
    (∀ role, role ∈ changedRoles statements ↔
      ∃ s ∈ statements, s.isChange = true ∧ s.role = role) ∧
    (changedRoles statements).Pairwise (firstChange statements · < firstChange statements ·) ∧
    ChangeCounts.totals ((changedRoles statements).map fun role =>
      (role, changesOf statements role)) = statements.countP Statement.isChange := by
  refine ⟨?_, fun role => mem_changedRoles_iff, pairwise_changedRoles statements, ?_⟩
  · rw [report, Tally.render, changeLines_ofStatements, superuserLines_ofStatements, reportLines]
  · rw [← changes_ofStatements, totals_changes]

end GrantPlan
