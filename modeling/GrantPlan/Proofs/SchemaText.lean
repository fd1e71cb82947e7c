import GrantPlan.Proofs.Recording
import GrantPlan.Proofs.Spelling
import Mathlib.Algebra.Ring.Parity
import Mathlib.Data.List.DropRight
/-!
# Texts for schemas

A text for a schema is read in two ways. Where it stands by itself, it is trimmed first, and then
its quotes are taken off. In front of a mark or in a list of owned schemas the quotes are taken off
and nothing else. The two readings give the same schema just when there is nothing to trim
(`unquote_eq_schema_iff`).

In front of a dot and an object, the text is read as it is by itself, provided that each quote in it
is closed: a reader that is still inside quotes behind it takes the dot for a part of the schema
(`splitAtDot?_append`).
-/

namespace GrantPlan

/-! ## Text behind quotes -/

namespace Identifier

/-- Without a quote there is none that closes a text. -/
theorem closeQuoted?_of_not_mem {cs : List Char} (h : '"' ∉ cs) : closeQuoted? cs = none := by
  induction cs with
  | nil => rfl
  | cons c cs ih =>
    have hquote : c ≠ '"' := fun heq => h (by simp [heq])
    simp [closeQuoted?, hquote, ih fun hmem => h (List.mem_cons_of_mem c hmem)]

/-- Text without quotes stays behind what is read. -/
theorem closeQuoted?_append {cs after : List Char} (h : '"' ∉ after) :
    closeQuoted? (cs ++ after) = (closeQuoted? cs).map (· ++ after) := by
  induction cs using closeQuoted?.induct with
  | case1 => exact closeQuoted?_of_not_mem h
  | case2 rest ih => simp [closeQuoted?, ih, Function.comp_def]
  | case3 rest hrest =>
    -- the quote is a single one also with the text behind it
    have hsingle : ∀ rest', rest ++ after ≠ '"' :: rest' := by
      intro rest' heq
      cases rest with
      | nil => exact h (by simp_all)
      | cons c rest => exact hrest rest rfl (by simp_all)
    simp [closeQuoted?, hsingle]
  | case4 c rest hrest hc ih => simp [closeQuoted?, hc, ih, Function.comp_def]

theorem unquoteChars_append {cs after : List Char} (h : '"' ∉ after) :
    unquoteChars (cs ++ after) = unquoteChars cs ++ after := by
  cases cs with
  | nil => exact unquoteChars_of_head_ne fun hhead => h (List.mem_of_head? hhead)
  | cons c rest =>
    by_cases hc : c = '"'
    · cases hclose : closeQuoted? rest <;>
        simp [unquoteChars, hc, closeQuoted?_append h, hclose]
    · simp [unquoteChars, hc]

theorem unquote_append {text after : String} (h : '"' ∉ after.toList) :
    unquote (text ++ after) = unquote text ++ after := by
  rw [← String.toList_inj, String.toList_append, unquote, unquote, String.toList_ofList,
    String.toList_ofList, String.toList_append, unquoteChars_append h]

end Identifier

/-! ## White space and quotes -/

theorem quote_not_mem_of_isBlank {cs : List Char} (h : ∀ c ∈ cs, isBlank c = true) : '"' ∉ cs :=
  fun hmem => absurd (h _ hmem) (by decide)

/-- White space around a text does not go away with the quotes. -/
theorem Padded.eq_of_unquote_eq {s t : String} (h : Padded s t)
    (heq : Identifier.unquote s = Identifier.unquote t) : s = t := by
  obtain ⟨before, after, hbefore, hafter⟩ := h
  have hlength := congrArg (fun u => u.toList.length) heq
  have hshorter := Identifier.length_unquote_le s
  rw [← String.length_toList, ← String.length_toList] at hshorter
  simp only [Identifier.unquote, String.toList_append, String.toList_ofList,
    Identifier.unquoteChars_append (quote_not_mem_of_isBlank hafter)] at hlength hshorter
  cases hchars : before.toList with
  | nil =>
    obtain rfl : before = "" := String.toList_inj.1 hchars
    have hnone : after.toList = [] := by
      simpa [hchars] using hlength
    obtain rfl : after = "" := String.toList_inj.1 hnone
    simp
  | cons c rest =>
    -- then there are no quotes that could be taken off
    have hblank : isBlank c = true := hbefore c (by simp [hchars])
    have hhead : (c :: rest ++ s.toList).head? ≠ some '"' := by
      rintro ⟨⟩
      exact absurd hblank (by decide)
    rw [hchars, Identifier.unquoteChars_of_head_ne hhead] at hlength
    simp only [List.length_append, List.length_cons] at hlength
    omega

/-- Trimming takes off white space only. -/
theorem padded_trimText (s : String) : Padded (trimText s) s := by
  let rest := s.toList.dropWhile isBlank
  have htext : String.ofList (s.toList.takeWhile isBlank) ++ trimText s ++
      String.ofList (rest.rtakeWhile isBlank) = s := by
    have hback : trimBlanks s.toList ++ rest.rtakeWhile isBlank = rest :=
      List.rdropWhile_append_rtakeWhile
    rw [← String.toList_inj, String.toList_append, String.toList_append, trimText,
      String.toList_ofList, String.toList_ofList, String.toList_ofList, List.append_assoc, hback,
      List.takeWhile_append_dropWhile]
  have hpadded := Padded.around (s := trimText s) (String.ofList (s.toList.takeWhile isBlank))
    (String.ofList (rest.rtakeWhile isBlank))
    (fun c hc => List.mem_takeWhile_imp (by simpa using hc))
    (fun c hc => List.mem_rtakeWhile_imp (by simpa using hc))
  rwa [htext] at hpadded

namespace ObjectName

/-! ## Open quotes -/

/-- Whether a reader is inside quotes behind a text: every quote takes it in or out. -/
def quotedBehind (quoted : Bool) (cs : List Char) : Bool :=
  cs.foldl (fun quoted c => quoted ^^ (c = '"')) quoted

theorem quotedBehind_eq (quoted : Bool) (cs : List Char) :
    quotedBehind quoted cs = (quoted ^^ decide (Odd (cs.count '"'))) := by
  induction cs generalizing quoted with
  | nil => simp [quotedBehind]
  | cons c cs ih =>
    show quotedBehind (quoted ^^ (c = '"')) cs = _
    rw [ih]
    by_cases hc : c = '"'
    · by_cases hodd : Odd (cs.count '"') <;> simp [hc, hodd, Nat.odd_add_one]
    · simp [hc]

theorem quotedBehind_eq_false_iff {cs : List Char} :
    quotedBehind false cs = false ↔ Even (cs.count '"') := by
  simp [quotedBehind_eq]

/-- A reader that comes to the end of a text without a split goes on with what is behind it. -/
theorem splitAtDot?_append {quoted : Bool} {cs : List Char} (h : splitAtDot? quoted cs = none)
    (rest : List Char) :
    splitAtDot? quoted (cs ++ rest) = (splitAtDot? (quotedBehind quoted cs) rest).map
      fun parts => (cs ++ parts.1, parts.2) := by
  induction cs generalizing quoted with
  | nil => simp [quotedBehind]
  | cons c cs ih =>
    by_cases hdot : c = '.' && !quoted
    · simp [splitAtDot?, hdot] at h
    · rw [splitAtDot?, if_neg hdot, Option.map_eq_none_iff] at h
      rw [List.cons_append, splitAtDot?, if_neg hdot, ih h, Option.map_map]
      rfl

/-! ## The schema that a text names -/

variable {text schema : String}

theorem splitAtDot?_of_ofText_eq (h : ofText text = ⟨schema, none⟩) :
    splitAtDot? false text.toList = none ∧ readPart text.toList = schema := by
  unfold ofText at h
  split at h
  · cases h
  next hsplit => exact ⟨hsplit, (ObjectName.mk.inj h).1⟩

/-- A text that names a schema by itself does so in front of a dot, once its quotes are closed. -/
theorem passedOver_of_ofText_eq (h : ofText text = ⟨schema, none⟩)
    (hclosed : Even (text.toList.count '"')) : PassedOver text.toList := by
  intro rest
  rw [splitAtDot?_append (splitAtDot?_of_ofText_eq h).1, quotedBehind_eq_false_iff.2 hclosed]

theorem ofText_append_dot_of_ofText_eq (h : ofText text = ⟨schema, none⟩)
    (hclosed : Even (text.toList.count '"')) (t : String) :
    ofText (text ++ "." ++ t) = ⟨schema, some (readPart t.toList)⟩ := by
  rw [ofText_append_dot (passedOver_of_ofText_eq h hclosed), (splitAtDot?_of_ofText_eq h).2]

/-- Behind an open quote, the dot in front of an object is part of the schema. -/
theorem object?_ofText_of_open (h : ofText text = ⟨schema, none⟩)
    (hopen : ¬ Even (text.toList.count '"')) {t : String}
    (ht : splitAtDot? true ('.' :: t.toList) = none) :
    (ofText (text ++ "." ++ t)).object? = none := by
  have hbehind : quotedBehind false text.toList = true := by
    rwa [← quotedBehind_eq_false_iff, Bool.not_eq_false] at hopen
  have hsplit : splitAtDot? false (text ++ "." ++ t).toList = none := by
    have happend := splitAtDot?_append (splitAtDot?_of_ofText_eq h).1 ('.' :: t.toList)
    rw [hbehind, ht] at happend
    simpa using happend
  rw [ofText, hsplit]

/-- A text that names a schema is the schema with its quotes taken off, if it has no white space
around it. -/
theorem unquote_eq_schema_iff (h : ofText text = ⟨schema, none⟩) :
    Identifier.unquote text = schema ↔ trimText text = text := by
  have hread : Identifier.unquote (trimText text) = schema := by
    rw [← (splitAtDot?_of_ofText_eq h).2, readPart, Identifier.unquote, trimText,
      String.toList_ofList]
  rw [← hread]
  constructor
  · exact fun heq => (padded_trimText text).eq_of_unquote_eq heq.symm
  · exact fun htrim => by rw [htrim]

end ObjectName

end GrantPlan
