import GrantPlan.Json
import GrantPlan.Json.Text
import Mathlib.Data.List.Basic
/-!
# JSON text is read back

What is written as JSON is read as the value it was written for. A text `Spells` a value when a
reader that stands in front of it takes the value in and stops right behind the text, whatever
comes next. Strings do so, and a list or an object does when its parts do (`spells_listText`,
`spells_objectText`).

The number that bounds the nesting never runs out, since every part of a text is shorter than the
text that holds it.
-/

namespace GrantPlan.Json

/-! ## Space -/

@[simp] theorem skipSpace_cons_of_isSpace {c : Char} (h : isSpace c = true) (cs : List Char) :
    skipSpace (c :: cs) = skipSpace cs := List.dropWhile_cons_of_pos h

@[simp] theorem skipSpace_cons_of_not_isSpace {c : Char} (h : isSpace c = false) (cs : List Char) :
    skipSpace (c :: cs) = c :: cs := List.dropWhile_cons_of_neg (by simp [h])

@[simp] theorem skipSpace_newline (cs : List Char) : skipSpace ('\n' :: cs) = skipSpace cs := rfl

theorem skipSpace_skipSpace (cs : List Char) : skipSpace (skipSpace cs) = skipSpace cs := by
  induction cs with
  | nil => rfl
  | cons c cs ih => cases hc : isSpace c <;> simp [hc, ih]

theorem toList_indentation (level : Nat) :
    (indentation level).toList = List.replicate (2 * level) ' ' := by
  have hpush : ∀ n, (Nat.repeat (fun s : String => s.push ' ') n "").toList =
      List.replicate n ' ' := by
    intro n
    induction n with
    | zero => rfl
    | succ n ih => rw [Nat.repeat, String.toList_push, ih, List.replicate_succ']
  rw [indentation, String.pushn_eq_repeat_push, hpush]

@[simp] theorem skipSpace_indentation (level : Nat) (cs : List Char) :
    skipSpace ((indentation level).toList ++ cs) = skipSpace cs := by
  refine List.dropWhile_append_of_pos fun c hc => ?_
  rw [toList_indentation] at hc
  obtain rfl := List.eq_of_mem_replicate hc
  rfl

/-- Space in front of a value does not count. -/
theorem readValue_congr {cs cs' : List Char} (h : skipSpace cs = skipSpace cs') (fuel : Nat) :
    readValue fuel cs = readValue fuel cs' := by
  cases fuel with
  | zero => rfl
  | succ fuel => rw [readValue, readValue, h]

theorem readItems_congr {cs cs' : List Char} (h : skipSpace cs = skipSpace cs') (fuel : Nat) :
    readItems fuel cs = readItems fuel cs' := by
  cases fuel with
  | zero => rfl
  | succ fuel => rw [readItems, readItems, readValue_congr h]

theorem readMembers_congr {cs cs' : List Char} (h : skipSpace cs = skipSpace cs') (fuel : Nat) :
    readMembers fuel cs = readMembers fuel cs' := by
  cases fuel with
  | zero => rfl
  | succ fuel => rw [readMembers, readMembers, h]

/-! ## Strings -/

/-- Two hexadecimal digits behind two zeros spell any control character. -/
theorem hexNumber?_control : ∀ n < 32,
    hexNumber? ['0', '0', Nat.digitChar (n / 16), Nat.digitChar (n % 16)] = some n := by decide

/-- A code unit outside the surrogates is a character of its own. -/
theorem assemble_codeUnit {n : Nat} (h : n < 0xD800) (pieces : List Piece) :
    assemble (.codeUnit n :: pieces) = (assemble pieces).map (Char.ofNat n :: ·) := by
  have hhigh : isHighSurrogate n = false := by simp [isHighSurrogate]; omega
  have hlow : isLowSurrogate n = false := by simp [isLowSurrogate]; omega
  cases pieces with
  | nil => simp [assemble, hhigh, hlow]
  | cons piece pieces => cases piece <;> simp [assemble, hhigh, hlow]

/-- What reading a piece and the rest of the string makes of the reading of the rest. -/
def prepend (piece : Piece) (tail? : Option (List Piece × List Char)) :
    Option (List Piece × List Char) :=
  tail?.map fun (pieces, rest) => (piece :: pieces, rest)

theorem readPieces_escaped {mark c : Char} (h : escaped? mark = some c) (cs : List Char) :
    readPieces ('\\' :: mark :: cs) = prepend (.char c) (readPieces cs) := by
  -- `u` is no such mark, so this is not the spelling of a code unit
  have hmark : mark ≠ 'u' := by
    rintro rfl
    cases h
  rw [readPieces]
  · rw [h]
    cases readPieces cs <;> rfl
  · intro a b c d rest hcontrol
    exact absurd hcontrol hmark

theorem readPieces_control {n : Nat} (h : n < 32) (cs : List Char) :
    readPieces
        ('\\' :: 'u' :: '0' :: '0' :: Nat.digitChar (n / 16) :: Nat.digitChar (n % 16) :: cs) =
      prepend (.codeUnit n) (readPieces cs) := by
  rw [readPieces, hexNumber?_control n h]
  cases readPieces cs <;> rfl

theorem readPieces_plain {c : Char} (hquote : c ≠ '"') (hbackslash : c ≠ '\\') (hspace : ¬ c < ' ')
    (cs : List Char) : readPieces (c :: cs) = prepend (.char c) (readPieces cs) := by
  rw [readPieces]
  · rw [if_neg hspace]
    cases readPieces cs <;> rfl
  all_goals simp [hquote, hbackslash]

/-- The three ways of spelling a character: by a mark, by its number, or as it is. -/
theorem escape_cases (c : Char) :
    (∃ mark, escape c = ['\\', mark] ∧ escaped? mark = some c) ∨
    (c.toNat < 32 ∧ escape c =
      ['\\', 'u', '0', '0', Nat.digitChar (c.toNat / 16), Nat.digitChar (c.toNat % 16)]) ∨
    (c ≠ '"' ∧ c ≠ '\\' ∧ ¬ c < ' ') ∧ escape c = [c] := by
  unfold escape
  split_ifs
  case neg hquote hbackslash _ _ _ _ _ hspace =>
    exact .inr (.inr ⟨⟨hquote, hbackslash, hspace⟩, rfl⟩)
  -- the last test is for control characters, and each of the others is for one character
  on_goal 8 => exact .inr (.inl ⟨‹c < ' '›, rfl⟩)
  all_goals
    subst c
    exact .inl ⟨_, rfl, rfl⟩

/-- The spelling of a character is read as one piece, which contributes that character. -/
theorem exists_piece (c : Char) : ∃ piece,
    (∀ cs, readPieces (escape c ++ cs) = prepend piece (readPieces cs)) ∧
    ∀ pieces, assemble (piece :: pieces) = (assemble pieces).map (c :: ·) := by
  rcases escape_cases c with ⟨mark, hspelling, hmark⟩ | ⟨hcontrol, hspelling⟩ | ⟨hplain, hspelling⟩
  · rw [hspelling]
    exact ⟨.char c, readPieces_escaped hmark, fun _ => rfl⟩
  · rw [hspelling]
    refine ⟨.codeUnit c.toNat, readPieces_control hcontrol, fun pieces => ?_⟩
    rw [assemble_codeUnit (by omega), Char.ofNat_toNat]
  · obtain ⟨hquote, hbackslash, hspace⟩ := hplain
    rw [hspelling]
    exact ⟨.char c, readPieces_plain hquote hbackslash hspace, fun _ => rfl⟩

/-- A string is read up to the quote that closes it. -/
theorem readString_escape (cs rest : List Char) :
    readString (cs.flatMap escape ++ '"' :: rest) = some (some (String.ofList cs), rest) := by
  have hread : ∃ pieces, readPieces (cs.flatMap escape ++ '"' :: rest) = some (pieces, rest) ∧
      assemble pieces = some cs := by
    induction cs with
    | nil => exact ⟨[], by simp [readPieces], rfl⟩
    | cons c cs ih =>
      obtain ⟨pieces, hpieces, hassemble⟩ := ih
      obtain ⟨piece, hpiece, hcontributes⟩ := exists_piece c
      refine ⟨piece :: pieces, ?_, ?_⟩
      · rw [List.flatMap_cons, List.append_assoc, hpiece, hpieces]
        rfl
      · rw [hcontributes, hassemble, Option.map_some]
  obtain ⟨pieces, hpieces, hassemble⟩ := hread
  simp [readString, hpieces, hassemble]

/-! ## Values -/

/-- A reader that stands in front of the text takes in the value and stops behind the text. The text
does not begin like the end of a list. -/
structure Spells (text : String) (value : Json) : Prop where
  begins : ∃ c rest, text.toList = c :: rest ∧ isSpace c = false ∧ c ≠ ']'
  reads : ∀ fuel, text.toList.length ≤ fuel + 1 → ∀ rest,
    readValue (fuel + 1) (text.toList ++ rest) = (value, some rest)

/-- No text is so short that a reader stops before it has begun. -/
theorem Spells.readValue_eq {text : String} {value : Json} (h : Spells text value) {fuel : Nat}
    (hfuel : text.toList.length ≤ fuel) (rest : List Char) :
    readValue fuel (text.toList ++ rest) = (value, some rest) := by
  obtain ⟨c, tail, htext, -, -⟩ := h.begins
  have hlength : text.toList.length = tail.length + 1 := by rw [htext, List.length_cons]
  obtain ⟨fuel, rfl⟩ := Nat.exists_eq_add_of_lt (show 0 < fuel by omega)
  exact h.reads (0 + fuel) hfuel rest

theorem spells_quoted (s : String) : Spells (quoted s) (.string (some s)) := by
  have htext : (quoted s).toList = '"' :: (s.toList.flatMap escape ++ ['"']) := by
    rw [quoted, String.toList_ofList, List.cons_append]
  refine ⟨⟨'"', _, htext, rfl, by decide⟩, fun fuel _ rest => ?_⟩
  have hread := readString_escape s.toList rest
  rw [String.ofList_toList] at hread
  simp [htext, readValue, hread, show isSpace '"' = false from rfl]

/-- A text with the value that it spells. -/
structure Phrase where
  text : String
  value : Json
  spells : Spells text value

/-! ## Lists and objects -/

/-- The lines of a list or an object, which commas end but for the last. -/
def linesOf (level : Nat) (items : List String) : List Char :=
  (",\n".intercalate (items.map (indentation (level + 1) ++ ·))).toList

theorem linesOf_singleton (level : Nat) (item : String) :
    linesOf level [item] = (indentation (level + 1)).toList ++ item.toList := by
  simp [linesOf]

theorem linesOf_cons_cons (level : Nat) (item next : String) (items : List String) :
    linesOf level (item :: next :: items) =
      (indentation (level + 1)).toList ++ item.toList ++
        ',' :: '\n' :: linesOf level (next :: items) := by
  simp [linesOf, String.toList_intercalate]

theorem length_linesOf_cons_cons (level : Nat) (item next : String) (items : List String) :
    item.toList.length + (linesOf level (next :: items)).length + 2 ≤
      (linesOf level (item :: next :: items)).length := by
  simp [linesOf_cons_cons]
  omega

/-- The text of a list or an object that is not empty. -/
theorem toList_block (opening closing : String) (level : Nat) (item : String)
    (items : List String) :
    (block opening closing level (item :: items)).toList =
      opening.toList ++ '\n' :: (linesOf level (item :: items) ++
        '\n' :: ((indentation level).toList ++ closing.toList)) := by
  simp [block, linesOf]

/-- The first thing inside the brackets is the first character of the first item. -/
theorem skipSpace_linesOf (level : Nat) {item : String} {c : Char} {rest : List Char}
    (hitem : item.toList = c :: rest) (hc : isSpace c = false) (items : List String)
    (after : List Char) :
    ∃ more, skipSpace ('\n' :: (linesOf level (item :: items) ++ after)) = c :: more := by
  cases items with
  | nil => simp [linesOf_singleton, hitem, hc]
  | cons next items => simp [linesOf_cons_cons, hitem, hc]

/-- What closes a list or an object stands on a line of its own. -/
theorem skipSpace_closing (level : Nat) {closing : Char} (h : isSpace closing = false)
    (rest : List Char) :
    skipSpace ('\n' :: ((indentation level).toList ++ closing :: rest)) = closing :: rest := by
  rw [skipSpace_newline, skipSpace_indentation, skipSpace_cons_of_not_isSpace h]

/-! ## Lists -/

variable {level : Nat}

/-- An item of a list that is not the last one. -/
theorem readItems_more (x : Phrase) {fuel : Nat} (hfuel : x.text.toList.length ≤ fuel)
    (rest : List Char) :
    readItems (fuel + 1) ((indentation level).toList ++ x.text.toList ++ ',' :: rest) =
      (x.value :: (readItems fuel rest).1, (readItems fuel rest).2) := by
  have hread := x.spells.readValue_eq hfuel (',' :: rest)
  rw [List.append_assoc, readItems_congr (skipSpace_indentation level _)]
  simp only [readItems, hread, skipSpace_cons_of_not_isSpace (show isSpace ',' = false from rfl)]

/-- The last item of a list. -/
theorem readItems_last (x : Phrase) {fuel : Nat} (hfuel : x.text.toList.length ≤ fuel)
    {after rest : List Char} (hafter : skipSpace after = ']' :: rest) :
    readItems (fuel + 1) ((indentation level).toList ++ x.text.toList ++ after) =
      ([x.value], some rest) := by
  have hread := x.spells.readValue_eq hfuel after
  rw [List.append_assoc, readItems_congr (skipSpace_indentation level _)]
  simp only [readItems, hread, hafter]

/-- Each line costs a list one unit of fuel and more than one character, so fuel never runs out. -/
theorem readItems_linesOf (x : Phrase) (xs : List Phrase) {fuel : Nat}
    (hfuel : (linesOf level ((x :: xs).map Phrase.text)).length < fuel) (rest : List Char) :
    readItems fuel (linesOf level ((x :: xs).map Phrase.text) ++
      '\n' :: ((indentation level).toList ++ ']' :: rest)) =
        ((x :: xs).map Phrase.value, some rest) := by
  induction xs generalizing x fuel with
  | nil =>
    cases fuel with
    | zero => simp at hfuel
    | succ fuel =>
      simp only [List.map_cons, List.map_nil, linesOf_singleton, List.length_append] at hfuel ⊢
      exact readItems_last x (by omega) (skipSpace_closing level rfl rest)
  | cons y xs ih =>
    cases fuel with
    | zero => simp at hfuel
    | succ fuel =>
      have hlength := length_linesOf_cons_cons level x.text y.text (xs.map Phrase.text)
      simp only [List.map_cons] at hfuel ih hlength ⊢
      have hrest := @ih y fuel (by omega)
      rw [← readItems_congr (skipSpace_newline _)] at hrest
      rw [linesOf_cons_cons, List.append_assoc, List.cons_append, readItems_more x (by omega),
        List.cons_append, hrest]

/-- An opening bracket with anything but its closing one behind it. -/
theorem readValue_array {cs more : List Char} {c : Char} (hcs : skipSpace cs = c :: more)
    (hc : c ≠ ']') (fuel : Nat) :
    readValue (fuel + 1) ('[' :: cs) = (array (readItems fuel cs).1, (readItems fuel cs).2) := by
  have hitems : readItems fuel cs = readItems fuel (c :: more) := by
    rw [← hcs]
    exact readItems_congr (skipSpace_skipSpace cs).symm fuel
  rw [hitems]
  simp [readValue, hcs, hc, show isSpace '[' = false from rfl]

/-- A list spells the values of its items. -/
theorem spells_listText (level : Nat) (xs : List Phrase) :
    Spells (listText level (xs.map Phrase.text)) (.array (xs.map Phrase.value)) := by
  cases xs with
  | nil =>
    have htext : (listText level ([].map Phrase.text)).toList = ['[', ']'] := by
      simp [listText, block]
    refine ⟨⟨'[', _, htext, rfl, by decide⟩, fun fuel _ rest => ?_⟩
    rw [htext]
    rfl
  | cons x xs =>
    have htext : (listText level ((x :: xs).map Phrase.text)).toList =
        '[' :: '\n' :: (linesOf level ((x :: xs).map Phrase.text) ++
          '\n' :: ((indentation level).toList ++ [']'])) :=
      toList_block "[" "]" level x.text (xs.map Phrase.text)
    refine ⟨⟨'[', _, htext, rfl, by decide⟩, fun fuel hfuel rest => ?_⟩
    rw [htext] at hfuel ⊢
    -- the brackets and the last line are left over
    have hlength : (linesOf level ((x :: xs).map Phrase.text)).length < fuel := by
      simp at hfuel ⊢
      omega
    obtain ⟨c, tail, hx, hspace, hc⟩ := x.spells.begins
    obtain ⟨more, hmore⟩ := skipSpace_linesOf level hx hspace (xs.map Phrase.text)
      ('\n' :: ((indentation level).toList ++ ']' :: rest))
    have hitems := readItems_linesOf x xs hlength rest
    rw [← readItems_congr (skipSpace_newline _), List.map_cons] at hitems
    simp [readValue_array hmore hc, hitems]

/-! ## Objects -/

/-- A member of an object: a key, and a value with the text that spells it. -/
structure Member extends Phrase where
  key : String

namespace Member

/-- The line of a member. -/
def line (m : Member) : String := quoted m.key ++ ": " ++ m.text

/-- What is read of a member. -/
def read (m : Member) : Option String × Json := (some m.key, m.value)

theorem toList_line (m : Member) :
    m.line.toList = '"' :: (m.key.toList.flatMap escape ++ '"' :: ':' :: ' ' :: m.text.toList) := by
  simp [line, quoted]

end Member

/-- A member up to the end of its value. -/
theorem readValue_member (m : Member) {fuel : Nat} (hfuel : m.line.toList.length ≤ fuel)
    (after : List Char) :
    readString (m.key.toList.flatMap escape ++ '"' :: ':' :: ' ' :: (m.text.toList ++ after)) =
        some (some m.key, ':' :: ' ' :: (m.text.toList ++ after)) ∧
      readValue fuel (' ' :: (m.text.toList ++ after)) = (m.value, some after) := by
  have hlength : m.text.toList.length ≤ fuel := by
    rw [Member.toList_line] at hfuel
    simp at hfuel ⊢
    omega
  have hkey := readString_escape m.key.toList (':' :: ' ' :: (m.text.toList ++ after))
  rw [String.ofList_toList] at hkey
  rw [readValue_congr (skipSpace_cons_of_isSpace rfl _), m.spells.readValue_eq hlength]
  exact ⟨hkey, rfl⟩

/-- A member of an object that is not the last one. -/
theorem readMembers_more (m : Member) {fuel : Nat} (hfuel : m.line.toList.length ≤ fuel)
    (rest : List Char) :
    readMembers (fuel + 1) ((indentation level).toList ++ m.line.toList ++ ',' :: rest) =
      (m.read :: (readMembers fuel rest).1, (readMembers fuel rest).2) := by
  obtain ⟨hkey, hvalue⟩ := readValue_member m hfuel (',' :: rest)
  rw [List.append_assoc, readMembers_congr (skipSpace_indentation level _)]
  simp only [readMembers, Member.toList_line, List.cons_append, List.append_assoc,
    skipSpace_cons_of_not_isSpace (show isSpace '"' = false from rfl), hkey,
    skipSpace_cons_of_not_isSpace (show isSpace ':' = false from rfl), hvalue,
    skipSpace_cons_of_not_isSpace (show isSpace ',' = false from rfl), Member.read]

/-- The last member of an object. -/
theorem readMembers_last (m : Member) {fuel : Nat} (hfuel : m.line.toList.length ≤ fuel)
    {after rest : List Char} (hafter : skipSpace after = '\x7d' :: rest) :
    readMembers (fuel + 1) ((indentation level).toList ++ m.line.toList ++ after) =
      ([m.read], some rest) := by
  obtain ⟨hkey, hvalue⟩ := readValue_member m hfuel after
  rw [List.append_assoc, readMembers_congr (skipSpace_indentation level _)]
  simp only [readMembers, Member.toList_line, List.cons_append, List.append_assoc,
    skipSpace_cons_of_not_isSpace (show isSpace '"' = false from rfl), hkey,
    skipSpace_cons_of_not_isSpace (show isSpace ':' = false from rfl), hvalue, hafter, Member.read]

/-- The members of an object, line by line as the items of a list. -/
theorem readMembers_linesOf (m : Member) (ms : List Member) {fuel : Nat}
    (hfuel : (linesOf level ((m :: ms).map Member.line)).length < fuel) (rest : List Char) :
    readMembers fuel (linesOf level ((m :: ms).map Member.line) ++
      '\n' :: ((indentation level).toList ++ '\x7d' :: rest)) =
        ((m :: ms).map Member.read, some rest) := by
  induction ms generalizing m fuel with
  | nil =>
    cases fuel with
    | zero => simp at hfuel
    | succ fuel =>
      simp only [List.map_cons, List.map_nil, linesOf_singleton, List.length_append] at hfuel ⊢
      exact readMembers_last m (by omega) (skipSpace_closing level rfl rest)
  | cons n ms ih =>
    cases fuel with
    | zero => simp at hfuel
    | succ fuel =>
      have hlength := length_linesOf_cons_cons level m.line n.line (ms.map Member.line)
      simp only [List.map_cons] at hfuel ih hlength ⊢
      have hrest := @ih n fuel (by omega)
      rw [← readMembers_congr (skipSpace_newline _)] at hrest
      rw [linesOf_cons_cons, List.append_assoc, List.cons_append, readMembers_more m (by omega),
        List.cons_append, hrest]

/-- An opening brace with anything but its closing one behind it. -/
theorem readValue_object {cs more : List Char} {c : Char} (hcs : skipSpace cs = c :: more)
    (hc : c ≠ '\x7d') (fuel : Nat) :
    readValue (fuel + 1) ('\x7b' :: cs) =
      (object (readMembers fuel cs).1, (readMembers fuel cs).2) := by
  have hmembers : readMembers fuel cs = readMembers fuel (c :: more) := by
    rw [← hcs]
    exact readMembers_congr (skipSpace_skipSpace cs).symm fuel
  rw [hmembers]
  simp [readValue, hcs, hc, show isSpace '\x7b' = false from rfl]

/-- An object that is not empty spells its keys and the values of its members. -/
theorem spells_objectText (level : Nat) (m : Member) (ms : List Member) :
    Spells (objectText level ((m :: ms).map fun n => (n.key, n.text)))
      (.object ((m :: ms).map Member.read)) := by
  have htext : (objectText level ((m :: ms).map fun n => (n.key, n.text))).toList =
      '\x7b' :: '\n' :: (linesOf level ((m :: ms).map Member.line) ++
        '\n' :: ((indentation level).toList ++ ['\x7d'])) := by
    have hblock := toList_block "\x7b" "\x7d" level m.line (ms.map Member.line)
    rw [objectText, List.map_map]
    exact hblock
  refine ⟨⟨'\x7b', _, htext, rfl, by decide⟩, fun fuel hfuel rest => ?_⟩
  rw [htext] at hfuel ⊢
  have hlength : (linesOf level ((m :: ms).map Member.line)).length < fuel := by
    simp at hfuel ⊢
    omega
  obtain ⟨more, hmore⟩ := skipSpace_linesOf level m.toList_line rfl (ms.map Member.line)
    ('\n' :: ((indentation level).toList ++ '\x7d' :: rest))
  have hmembers := readMembers_linesOf m ms hlength rest
  rw [← readMembers_congr (skipSpace_newline _), List.map_cons] at hmembers
  simp [readValue_object hmore (by decide), hmembers]

/-- A text that spells a value is read as that value, up to its end. -/
theorem Spells.ofText_eq {text : String} {value : Json} (h : Spells text value) :
    ofText text = (value, true) := by
  have hread := h.readValue_eq (by omega : text.toList.length ≤ 2 * text.toList.length + 2) []
  rw [List.append_nil] at hread
  simp only [ofText, hread]
  rfl

end GrantPlan.Json
