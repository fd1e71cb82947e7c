import GrantPlan.ObjectName
/-!
# Canonical spelling

Every name is read back from its canonical spelling (`ofText_render`), whatever characters it is
made of. So no two names of one kind are spelled alike, and a canonical spelling is its own.

The schema of a canonical spelling ends where its own quotes end, because a quote that is written
twice leaves a reader inside the quotes (`splitAtDot?_doubled`), and a schema without quotes has no
dot. The object begins with a quote, and what follows its closing quote is an argument list, which
begins with a parenthesis.

A name has other spellings besides (`Spells`), with white space around its parts and with or without
quotes. They are all read as the name, and so have one canonical spelling (`canonical_spelling`).
-/

namespace GrantPlan

/-! ## White space around a text -/

/-- A text that neither begins nor ends with white space. -/
structure Unpadded (cs : List Char) : Prop where
  head : ∀ c, cs.head? = some c → isBlank c = false
  last : ∀ c, cs.getLast? = some c → isBlank c = false

/-- A text is another one with white space on either side of it. -/
inductive Padded (s : String) : String → Prop
  | around (before after : String) (blank_before : ∀ c ∈ before.toList, isBlank c = true)
      (blank_after : ∀ c ∈ after.toList, isBlank c = true) : Padded s (before ++ s ++ after)

theorem dropWhile_isBlank_eq_self {cs : List Char}
    (hhead : ∀ c, cs.head? = some c → isBlank c = false) : cs.dropWhile isBlank = cs := by
  cases cs with
  | nil => rfl
  | cons c rest => rw [List.dropWhile_cons_of_neg (by simp [hhead c rfl])]

theorem Unpadded.trimBlanks_append {before cs after : List Char} (h : Unpadded cs)
    (hbefore : ∀ c ∈ before, isBlank c = true) (hafter : ∀ c ∈ after, isBlank c = true) :
    trimBlanks (before ++ cs ++ after) = cs := by
  have hfront : (before ++ cs ++ after).dropWhile isBlank = (cs ++ after).dropWhile isBlank := by
    rw [List.append_assoc, List.dropWhile_append_of_pos hbefore]
  have hback : (after.reverse ++ cs.reverse).dropWhile isBlank = cs.reverse.dropWhile isBlank :=
    List.dropWhile_append_of_pos fun c hc => hafter c (List.mem_reverse.1 hc)
  have hreverse : cs.reverse.dropWhile isBlank = cs.reverse :=
    dropWhile_isBlank_eq_self (by simpa only [List.head?_reverse] using h.last)
  unfold trimBlanks
  cases cs with
  | nil =>
    -- the first pass takes off all there is
    have hnone : (after ++ []).dropWhile isBlank = [] := List.dropWhile_append_of_pos hafter
    rw [hfront, List.nil_append, ← List.append_nil after, hnone]
    rfl
  | cons c rest =>
    have hstart : (c :: rest ++ after).dropWhile isBlank = c :: rest ++ after :=
      dropWhile_isBlank_eq_self h.head
    rw [hfront, hstart, List.reverse_append, hback, hreverse, List.reverse_reverse]

theorem Unpadded.trimBlanks_eq {cs : List Char} (h : Unpadded cs) : trimBlanks cs = cs := by
  have htrim := @Unpadded.trimBlanks_append [] cs [] h (by simp) (by simp)
  rwa [List.nil_append, List.append_nil] at htrim

/-- Trimming takes off the white space on either side of a text, and nothing else. -/
theorem Padded.trimBlanks_eq {s t : String} (h : Padded s t) (hs : Unpadded s.toList) :
    trimBlanks t.toList = s.toList := by
  obtain ⟨before, after, hbefore, hafter⟩ := h
  rw [String.toList_append, String.toList_append, hs.trimBlanks_append hbefore hafter]

namespace Identifier

/-! ## Bare identifiers -/

theorem toNat_of_isBareRest {c : Char} (h : isBareRest c = true) :
    c.toNat = 36 ∨ 48 ≤ c.toNat ∧ c.toNat ≤ 57 ∨ c.toNat = 95 ∨
      97 ≤ c.toNat ∧ c.toNat ≤ 122 := by
  simp only [isBareRest, isBareStart, Bool.or_eq_true, decide_eq_true_eq] at h
  rcases h with ((hlower | rfl) | hdigit) | rfl
  · obtain ⟨hlow, hhigh⟩ := Bool.and_eq_true_iff.1 hlower
    exact .inr (.inr (.inr ⟨of_decide_eq_true hlow, of_decide_eq_true hhigh⟩))
  · decide
  · obtain ⟨hlow, hhigh⟩ := Bool.and_eq_true_iff.1 hdigit
    exact .inr (.inl ⟨of_decide_eq_true hlow, of_decide_eq_true hhigh⟩)
  · decide

theorem ne_of_isBareRest {c : Char} (h : isBareRest c = true) :
    c ≠ '"' ∧ c ≠ '.' ∧ isBlank c = false := by
  have hc := toNat_of_isBareRest h
  refine ⟨?_, ?_, ?_⟩
  · rintro rfl
    revert hc
    decide
  · rintro rfl
    revert hc
    decide
  · rw [Bool.eq_false_iff]
    simp only [isBlank, blankRanges, List.any_cons, List.any_nil, ne_eq, Bool.or_eq_true,
      Bool.and_eq_true, decide_eq_true_eq, Bool.false_eq_true, or_false]
    omega

theorem isBareRest_of_isBare {s : String} (h : isBare s = true) :
    ∀ c ∈ s.toList, isBareRest c = true := by
  unfold isBare at h
  split at h
  next heq => simp at h
  next first rest heq =>
    obtain ⟨hfirst, hrest⟩ := Bool.and_eq_true_iff.1 h
    rw [heq, List.forall_mem_cons]
    exact ⟨by simp [isBareRest, hfirst], List.all_eq_true.1 hrest⟩

/-- An identifier is written bare or between quotes. -/
theorem toList_render_cases (s : String) :
    (render s).toList = s.toList ∧ (∀ c ∈ s.toList, isBareRest c = true) ∨
      (render s).toList = '"' :: doubled s.toList ++ ['"'] := by
  unfold render
  split
  next h => exact .inl ⟨rfl, isBareRest_of_isBare (Bool.and_eq_true_iff.1 h).1⟩
  next => exact .inr (by rw [quote, String.toList_ofList])

/-! ## Reading parts -/

theorem closeQuoted?_unquoteChars (cs : List Char) {rest : List Char}
    (hrest : rest.head? ≠ some '"') : unquoteChars ('"' :: doubled cs ++ '"' :: rest) = cs ++ rest := by
  rw [List.cons_append, unquoteChars, if_pos rfl, closeQuoted?_doubled cs hrest, Option.getD_some]

end Identifier

namespace ObjectName

open Identifier

/-- A spelling between quotes begins with a quote, and ends with one or with an argument list. -/
theorem unpadded_quoted (cs : List Char) {rest : List Char}
    (hlast : ∀ c, rest.getLast? = some c → isBlank c = false) :
    Unpadded ('"' :: doubled cs ++ '"' :: rest) := by
  constructor
  · intro c hc
    obtain rfl : '"' = c := by simpa using hc
    decide
  · intro c hc
    rw [List.getLast?_append, List.getLast?_cons] at hc
    cases hrest : rest.getLast? with
    | none =>
      obtain rfl : '"' = c := by simpa [hrest] using hc
      decide
    | some d =>
      obtain rfl : d = c := by simpa [hrest] using hc
      exact hlast d hrest

/-- A spelling between quotes, with an argument list behind it, is read as both together. -/
theorem readPart_quoted (cs rest : List Char) (hhead : rest.head? ≠ some '"')
    (hlast : ∀ c, rest.getLast? = some c → isBlank c = false) :
    readPart ('"' :: doubled cs ++ '"' :: rest) = String.ofList (cs ++ rest) := by
  rw [readPart, (unpadded_quoted cs hlast).trimBlanks_eq, closeQuoted?_unquoteChars cs hhead]

theorem readPart_quote (s : String) : readPart (quote s).toList = s := by
  have h := readPart_quoted s.toList [] (by simp) (by simp)
  rwa [List.append_nil, String.ofList_toList, ← String.toList_ofList (l := _ ++ _)] at h

/-- A bare spelling is read as it stands. -/
theorem readPart_bare {s : String} (hhead : s.toList.head? ≠ some '"') (hs : Unpadded s.toList) :
    readPart s.toList = s := by
  rw [readPart, hs.trimBlanks_eq, unquoteChars_of_head_ne hhead, String.ofList_toList]

theorem readPart_render (s : String) : readPart (Identifier.render s).toList = s := by
  unfold Identifier.render
  split
  next hbare =>
    have hrest := isBareRest_of_isBare (Bool.and_eq_true_iff.1 hbare).1
    refine readPart_bare (fun hc => ?_) ⟨fun c hc => ?_, fun c hc => ?_⟩
    · exact (ne_of_isBareRest (hrest _ (List.mem_of_head? hc))).1 rfl
    · exact (ne_of_isBareRest (hrest c (List.mem_of_head? hc))).2.2
    · exact (ne_of_isBareRest (hrest c (List.mem_of_getLast? hc))).2.2
  next => exact readPart_quote s

/-- An argument list ends with a closing parenthesis, where the object ends. -/
theorem eq_of_getLast?_splitArguments {kind : ObjectKind} {object : String} {c : Char}
    (h : (splitArguments kind object).2.toList.getLast? = some c) : c = ')' := by
  unfold splitArguments at h
  dsimp only at h
  split at h
  next harguments =>
    simp only [Bool.and_eq_true, decide_eq_true_eq] at harguments
    obtain ⟨-, hclose⟩ := harguments
    rw [String.toList_ofList] at h
    rw [← List.takeWhile_append_dropWhile (p := (· ≠ '(')) (l := object.toList),
      List.getLast?_append, h, Option.some_or] at hclose
    exact Option.some.inj hclose
  next => simp at h

/-- Nothing of an object is lost in cutting off its argument list, which begins with a parenthesis
and ends with one. -/
theorem splitArguments_spec (kind : ObjectKind) (object : String) :
    (splitArguments kind object).1.toList ++ (splitArguments kind object).2.toList = object.toList ∧
      (splitArguments kind object).2.toList.head? ≠ some '"' ∧
      ∀ c, (splitArguments kind object).2.toList.getLast? = some c → isBlank c = false := by
  refine and_assoc.1 ⟨?_, fun c hc => ?_⟩
  · unfold splitArguments
    dsimp only
    split
    next harguments =>
      simp only [String.toList_ofList]
      refine ⟨List.takeWhile_append_dropWhile, fun hhead => ?_⟩
      have hparenthesis := List.head?_dropWhile_not (· ≠ '(') object.toList
      rw [hhead] at hparenthesis
      simp at hparenthesis
    next => simp
  · obtain rfl := eq_of_getLast?_splitArguments hc
    decide

theorem readPart_renderObject (kind : ObjectKind) (object : String) :
    readPart (renderObject kind object).toList = object := by
  obtain ⟨hcut, hhead, hlast⟩ := splitArguments_spec kind object
  have h := readPart_quoted (splitArguments kind object).1.toList _ hhead hlast
  rw [hcut, String.ofList_toList] at h
  simpa [renderObject, quote] using h

/-! ## The first dot outside quotes -/

/-- A quote that is written twice leaves a reader inside the quotes, so only the closing quote ends
them. -/
theorem splitAtDot?_doubled (cs rest : List Char) :
    splitAtDot? true (doubled cs ++ '"' :: rest) =
      (splitAtDot? false rest).map fun parts => (doubled cs ++ '"' :: parts.1, parts.2) := by
  induction cs with
  | nil => simp [doubled, splitAtDot?]
  | cons c cs ih =>
    by_cases hc : c = '"'
    · simp [doubled, splitAtDot?, hc, ih, Function.comp_def]
    · simp [doubled, splitAtDot?, hc, ih, Function.comp_def]

/-- A text that a reader in search of a dot outside quotes passes over, to be outside quotes again
behind it. -/
def PassedOver (cs : List Char) : Prop :=
  ∀ rest, splitAtDot? false (cs ++ rest) =
    (splitAtDot? false rest).map fun parts => (cs ++ parts.1, parts.2)

theorem PassedOver.append {cs ds : List Char} (hcs : PassedOver cs) (hds : PassedOver ds) :
    PassedOver (cs ++ ds) := by
  intro rest
  simp [hcs (ds ++ rest), hds rest, Function.comp_def]

theorem passedOver_of_forall {cs : List Char} (hcs : ∀ c ∈ cs, c ≠ '"' ∧ c ≠ '.') :
    PassedOver cs := by
  intro rest
  induction cs with
  | nil => simp
  | cons c cs ih =>
    obtain ⟨⟨hquote, hdot⟩, hcs⟩ := List.forall_mem_cons.1 hcs
    simp [splitAtDot?, hquote, hdot, ih hcs, Function.comp_def]

theorem passedOver_quote (s : String) : PassedOver (Identifier.quote s).toList := by
  intro rest
  have hdoubled := splitAtDot?_doubled s.toList rest
  simp [quote, splitAtDot?, hdoubled, Function.comp_def]

theorem passedOver_render (s : String) : PassedOver (Identifier.render s).toList := by
  rcases toList_render_cases s with ⟨hrender, hbare⟩ | hrender
  · rw [hrender]
    refine passedOver_of_forall fun c hc => ?_
    obtain ⟨hquote, hdot, -⟩ := ne_of_isBareRest (hbare c hc)
    exact ⟨hquote, hdot⟩
  · have hquote := passedOver_quote s
    rwa [quote, String.toList_ofList, ← hrender] at hquote

/-- Without a dot outside quotes, a text is read as a schema. -/
theorem ofText_of_passedOver {s : String} (h : PassedOver s.toList) :
    ofText s = ⟨readPart s.toList, none⟩ := by
  have hsplit := h []
  rw [List.append_nil] at hsplit
  simp [ofText, hsplit, splitAtDot?]

/-- A dot behind such a text is the one between a schema and its object. -/
theorem ofText_append_dot {s : String} (h : PassedOver s.toList) (t : String) :
    ofText (s ++ "." ++ t) = ⟨readPart s.toList, some (readPart t.toList)⟩ := by
  have hsplit := h ('.' :: t.toList)
  simp [ofText, hsplit, splitAtDot?]

/-! ## Reading back -/

/-- Every name is read back from its canonical spelling. -/
theorem ofText_render (kind : ObjectKind) (name : ObjectName) : ofText (name.render kind) = name := by
  obtain ⟨schema, object?⟩ := name
  have hschema := passedOver_render schema
  cases object? with
  | none => rw [render, ofText_of_passedOver hschema, readPart_render]
  | some object =>
    rw [render, ofText_append_dot hschema, readPart_render, readPart_renderObject]

theorem render_inj {kind : ObjectKind} {name name' : ObjectName} :
    name.render kind = name'.render kind ↔ name = name' := by
  refine ⟨fun h => ?_, congrArg (render kind)⟩
  rw [← ofText_render kind name, h, ofText_render]

@[simp] theorem canonical_render (kind : ObjectKind) (name : ObjectName) :
    canonical kind (name.render kind) = name.render kind := by
  rw [canonical, ofText_render]

/-! ## Every spelling -/

/-- The spellings of a schema: bare, where it holds no quote and no dot and has no white space at an
end, or between quotes. -/
inductive SpellsSchema (schema : String) : String → Prop
  | bare (no_quote : '"' ∉ schema.toList) (no_dot : '.' ∉ schema.toList)
      (unpadded : Unpadded schema.toList) : SpellsSchema schema schema
  | quoted : SpellsSchema schema (quote schema)

/-- The spellings of an object: bare, where it does not begin with a quote and has no white space at
an end, or between quotes, with the argument list of a function inside them or behind them. -/
inductive SpellsObject (kind : ObjectKind) (object : String) : String → Prop
  | bare (no_quote : object.toList.head? ≠ some '"') (unpadded : Unpadded object.toList) :
      SpellsObject kind object object
  | quoted : SpellsObject kind object (quote object)
  | rendered : SpellsObject kind object (renderObject kind object)

/-- The spellings of a name: its parts in any of their spellings, each with white space around it,
and a dot between them. -/
inductive Spells (kind : ObjectKind) : ObjectName → String → Prop
  | schema {schema spelling text : String} (spells : SpellsSchema schema spelling)
      (padded : Padded spelling text) : Spells kind ⟨schema, none⟩ text
  | object {schema object spelling text spelling' text' : String}
      (spells : SpellsSchema schema spelling) (padded : Padded spelling text)
      (spells_object : SpellsObject kind object spelling') (padded_object : Padded spelling' text') :
      Spells kind ⟨schema, some object⟩ (text ++ "." ++ text')

variable {kind : ObjectKind} {schema object spelling text : String}

theorem readPart_of_padded (h : Padded spelling text) (hs : Unpadded spelling.toList) :
    readPart text.toList = readPart spelling.toList := by
  rw [readPart, h.trimBlanks_eq hs, readPart, hs.trimBlanks_eq]

theorem unpadded_quote (s : String) : Unpadded (quote s).toList := by
  rw [quote, String.toList_ofList]
  exact unpadded_quoted s.toList (by simp)

theorem unpadded_renderObject (kind : ObjectKind) (object : String) :
    Unpadded (renderObject kind object).toList := by
  obtain ⟨-, -, hlast⟩ := splitArguments_spec kind object
  have h := unpadded_quoted (splitArguments kind object).1.toList hlast
  simpa [renderObject, quote] using h

theorem SpellsSchema.readPart_eq (h : SpellsSchema schema spelling) (hpadded : Padded spelling text) :
    readPart text.toList = schema := by
  cases h with
  | bare no_quote no_dot unpadded =>
    rw [readPart_of_padded hpadded unpadded]
    exact readPart_bare (fun hhead => no_quote (List.mem_of_head? hhead)) unpadded
  | quoted => rw [readPart_of_padded hpadded (unpadded_quote schema), readPart_quote]

theorem SpellsObject.readPart_eq (h : SpellsObject kind object spelling)
    (hpadded : Padded spelling text) : readPart text.toList = object := by
  cases h with
  | bare no_quote unpadded =>
    rw [readPart_of_padded hpadded unpadded, readPart_bare no_quote unpadded]
  | quoted => rw [readPart_of_padded hpadded (unpadded_quote object), readPart_quote]
  | rendered =>
    rw [readPart_of_padded hpadded (unpadded_renderObject kind object), readPart_renderObject]

theorem passedOver_of_isBlank {cs : List Char} (hcs : ∀ c ∈ cs, isBlank c = true) :
    PassedOver cs := by
  refine passedOver_of_forall fun c hc => ⟨?_, ?_⟩
  · rintro rfl
    exact absurd (hcs _ hc) (by decide)
  · rintro rfl
    exact absurd (hcs _ hc) (by decide)

theorem SpellsSchema.passedOver (h : SpellsSchema schema spelling) (hpadded : Padded spelling text) :
    PassedOver text.toList := by
  obtain ⟨before, after, hbefore, hafter⟩ := hpadded
  have hspelling : PassedOver spelling.toList := by
    cases h with
    | bare no_quote no_dot unpadded =>
      refine passedOver_of_forall fun c hc => ⟨?_, ?_⟩
      · exact fun heq => no_quote (heq ▸ hc)
      · exact fun heq => no_dot (heq ▸ hc)
    | quoted => exact passedOver_quote schema
  rw [String.toList_append, String.toList_append]
  exact ((passedOver_of_isBlank hbefore).append hspelling).append (passedOver_of_isBlank hafter)

/-- Every spelling of a name is read as that name. -/
theorem Spells.ofText_eq {name : ObjectName} (h : Spells kind name text) : ofText text = name := by
  cases h with
  | schema spells padded => rw [ofText_of_passedOver (spells.passedOver padded), spells.readPart_eq padded]
  | object spells padded spells_object padded_object =>
    rw [ofText_append_dot (spells.passedOver padded), spells.readPart_eq padded,
      spells_object.readPart_eq padded_object]

/-- All spellings of a name have the canonical one in common. A text has the same canonical spelling
as its canonical spelling, whatever it is made of, and no two names of a kind share one. -/
theorem canonical_spelling (kind : ObjectKind) :
    (∀ name text, Spells kind name text →
      ofText text = name ∧ canonical kind text = name.render kind) ∧
    (∀ text, canonical kind (canonical kind text) = canonical kind text) ∧
    Function.Injective (render kind) := by
  refine ⟨fun name text h => ?_, fun text => ?_, fun name name' h => render_inj.1 h⟩
  · have hread := h.ofText_eq
    exact ⟨hread, by rw [canonical, hread]⟩
  · exact canonical_render kind (ofText text)

/-- The function `total` of the schema `finance`, with white space around each part. -/
theorem canonical_spelling_total :
    Spells .functions ⟨"finance", some "total(integer)"⟩ " finance\t. \"total\"(integer) " ∧
    ofText " finance\t. \"total\"(integer) " = ⟨"finance", some "total(integer)"⟩ ∧
    canonical .functions " finance\t. \"total\"(integer) " = "finance.\"total\"(integer)" := by
  have hplain : Unpadded "finance".toList := ⟨by rintro c ⟨⟩; rfl, by rintro c ⟨⟩; rfl⟩
  have hschema : SpellsSchema "finance" "finance" := .bare (by decide) (by decide) hplain
  have hspace : ∀ c ∈ " ".toList, isBlank c = true := List.all_eq_true.1 rfl
  have htab : ∀ c ∈ "\t".toList, isBlank c = true := List.all_eq_true.1 rfl
  have hobject : SpellsObject .functions "total(integer)" "\"total\"(integer)" := .rendered
  have hspells : Spells .functions ⟨"finance", some "total(integer)"⟩
      " finance\t. \"total\"(integer) " :=
    .object hschema (.around " " "\t" hspace htab) hobject (.around " " " " hspace hspace)
  obtain ⟨hread, hcanonical⟩ := (canonical_spelling .functions).1 _ _ hspells
  exact ⟨hspells, hread, hcanonical⟩

end ObjectName

end GrantPlan
