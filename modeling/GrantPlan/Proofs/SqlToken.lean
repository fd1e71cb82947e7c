import GrantPlan.Proofs.Spelling
/-!
# SQL text as tokens

The lexical rules of PostgreSQL, as far as they decide where names, words and commands begin and
end. A bare word is folded to lower case. An identifier between double quotes ends at the first
quote that is not doubled. A comment runs from two hyphens to the end of the line. White space
separates, and every other character is a mark by itself.

Text is read one character at a time, by a reader that knows what it is in the middle of (`Mode`).

* `tokensFrom_quote` and `tokensFrom_render` - an identifier is read back as one token from either
  spelling, whatever characters it is made of;
* `reads_line` - a line behind which no quote is open is read by itself, whatever follows it.
-/

namespace GrantPlan

namespace Sql

open Identifier

/-! ## Tokens -/

inductive Token
  /-- A keyword or an identifier, in lower case. -/
  | word (text : String)
  /-- An identifier that stands between quotes. -/
  | quoted (name : String)
  | mark (c : Char)
  /-- What follows a quote that is not closed. -/
  | unclosed (text : String)
deriving DecidableEq, Repr

/-- Whether a character separates tokens. -/
def isSpace (c : Char) : Bool := c = ' ' || c.toNat ∈ [9, 10, 11, 12, 13]

/-- Whether a character ends a line, and with it a comment. -/
def isLineBreak (c : Char) : Bool := c = '\n' || c = '\r'

/-- Whether a character can begin a bare word. -/
def isWordStart (c : Char) : Bool := c.isAlpha || c = '_' || 128 ≤ c.toNat

/-- Whether a character can stand within a bare word. -/
def isWordRest (c : Char) : Bool := isWordStart c || c.isDigit || c = '$'

/-- Bare words are read as if they were written in lower case. -/
def fold (cs : List Char) : String := String.ofList (cs.map Char.toLower)

/-! ## The reader -/

/-- What a reader is in the middle of. -/
inductive Mode
  | between
  | inWord (text : List Char)
  | inQuotes (name : List Char)
  /-- Behind a quote that ends the identifier, unless another one follows. -/
  | afterQuote (name : List Char)
  /-- Behind a hyphen that begins a comment, if another one follows. -/
  | afterHyphen
  | inComment
deriving DecidableEq, Repr

/-- The token that has been read when nothing more belongs to it. -/
def Mode.finish : Mode → List Token
  | between => []
  | inWord text => [.word (fold text)]
  | inQuotes name => [.unclosed (String.ofList name)]
  | afterQuote name => [.quoted (String.ofList name)]
  | afterHyphen => [.mark '-']
  | inComment => []

/-- What a character continues, where it belongs to the same token or comment. -/
def Mode.continue? : Mode → Char → Option Mode
  | between, _ => none
  | inWord text, c => if isWordRest c then some (inWord (text ++ [c])) else none
  | inQuotes name, c => if c = '"' then some (afterQuote name) else some (inQuotes (name ++ [c]))
  | afterQuote name, c => if c = '"' then some (inQuotes (name ++ [c])) else none
  | afterHyphen, c => if c = '-' then some inComment else none
  | inComment, c => if isLineBreak c then some between else some inComment

/-- What a character begins that stands between tokens. -/
def Mode.begin (c : Char) : Mode :=
  if c = '"' then inQuotes []
  else if c = '-' then afterHyphen
  else if isWordStart c then inWord [c]
  else between

/-- The token that a character is by itself, where it stands between tokens and begins nothing. -/
def markOf (c : Char) : List Token :=
  if Mode.begin c = .between && !isSpace c then [.mark c] else []

/-- What a reader is in the middle of behind one more character. -/
def Mode.next (mode : Mode) (c : Char) : Mode := (mode.continue? c).getD (begin c)

/-- The tokens of a text, for a reader that is in the middle of something. -/
def tokensFrom : Mode → List Char → List Token
  | mode, [] => mode.finish
  | mode, c :: rest =>
    match mode.continue? c with
    | some next => tokensFrom next rest
    | none => mode.finish ++ markOf c ++ tokensFrom (.begin c) rest

/-- The tokens of a text. -/
def tokens (text : String) : List Token := tokensFrom .between text.toList

variable {mode : Mode} {cs rest : List Char} {c : Char}

/-- A character that belongs to what was read before it changes the mode and yields no token yet. -/
theorem tokensFrom_of_continue?_eq_some {next : Mode} (h : mode.continue? c = some next) :
    tokensFrom mode (c :: rest) = tokensFrom next rest := by
  rw [tokensFrom, h]

/-- Between tokens, a character is a mark, separates, or begins a token. -/
theorem tokensFrom_between_cons :
    tokensFrom .between (c :: rest) = markOf c ++ tokensFrom (.begin c) rest := by
  simp only [tokensFrom, Mode.continue?, Mode.finish, List.nil_append]

/-- A character that does not belong to what was read before it is read as if between tokens. -/
theorem tokensFrom_of_continue?_eq_none (h : mode.continue? c = none) :
    tokensFrom mode (c :: rest) = mode.finish ++ tokensFrom .between (c :: rest) := by
  rw [tokensFrom_between_cons, tokensFrom, h, List.append_assoc]

/-- What is read of the first part of a text does not depend on the rest, but for the mode in which
the reader comes to it. -/
theorem exists_tokensFrom_append (mode : Mode) (cs : List Char) : ∃ before, ∀ rest,
    tokensFrom mode (cs ++ rest) = before ++ tokensFrom (cs.foldl Mode.next mode) rest := by
  induction cs generalizing mode with
  | nil => exact ⟨[], fun rest => rfl⟩
  | cons c cs ih =>
    rw [List.foldl_cons, Mode.next]
    cases h : mode.continue? c with
    | some next =>
      obtain ⟨before, hbefore⟩ := ih next
      refine ⟨before, fun rest => ?_⟩
      rw [List.cons_append, tokensFrom_of_continue?_eq_some h, hbefore, Option.getD_some]
    | none =>
      obtain ⟨before, hbefore⟩ := ih (.begin c)
      refine ⟨mode.finish ++ markOf c ++ before, fun rest => ?_⟩
      rw [List.cons_append, tokensFrom_of_continue?_eq_none h, tokensFrom_between_cons, hbefore,
        Option.getD_none]
      simp only [List.append_assoc]

/-! ## Text that is read by itself -/

/-- Whether a text is read as some tokens, whatever follows it. -/
def Reads (cs : List Char) (tokens : List Token) : Prop :=
  ∀ rest, tokensFrom .between (cs ++ rest) = tokens ++ tokensFrom .between rest

/-- Texts that are read by themselves are read one after the other. -/
theorem Reads.append {cs' : List Char} {ts ts' : List Token} (h : Reads cs ts)
    (h' : Reads cs' ts') : Reads (cs ++ cs') (ts ++ ts') := by
  intro rest
  rw [List.append_assoc, h, h', List.append_assoc]

/-- With nothing behind it, a text has just the tokens that it is read as. -/
theorem Reads.tokensFrom_eq {ts : List Token} (h : Reads cs ts) : tokensFrom .between cs = ts := by
  have hempty := h []
  rwa [List.append_nil, tokensFrom, Mode.finish, List.append_nil] at hempty

/-- Whether a line break behind a text ends a line: no quote is open there. -/
def ClosesQuotes (cs : List Char) : Prop := (cs ++ ['\n']).foldl Mode.next .between = .between

instance : Decidable (ClosesQuotes cs) := inferInstanceAs (Decidable (_ = _))

/-- A line break that leads out of what the reader is in the middle of ends it. -/
theorem tokensFrom_lineBreak (h : mode.next '\n' = .between) :
    tokensFrom mode ('\n' :: rest) = mode.finish ++ tokensFrom .between rest := by
  cases mode with
  | between => rfl
  | inWord text => rfl
  | inQuotes name => cases h
  | afterQuote name => rfl
  | afterHyphen => rfl
  | inComment => rfl

/-- A line behind which no quote is open is read by itself: a break ends words and comments. -/
theorem reads_line (h : ClosesQuotes cs) : Reads (cs ++ ['\n']) (tokensFrom .between cs) := by
  obtain ⟨before, hbefore⟩ := exists_tokensFrom_append .between cs
  rw [ClosesQuotes, List.foldl_append] at h
  have hcs : tokensFrom .between cs = before ++ (cs.foldl Mode.next .between).finish := by
    have hempty := hbefore []
    rwa [List.append_nil, tokensFrom] at hempty
  intro rest
  rw [List.append_assoc, List.singleton_append, hbefore, tokensFrom_lineBreak h, hcs,
    List.append_assoc]

/-- What is read by itself leaves no quote open. -/
theorem Reads.closesQuotes {ts : List Token} (h : Reads cs ts) : ClosesQuotes cs := by
  obtain ⟨before, hbefore⟩ := exists_tokensFrom_append .between cs
  rw [ClosesQuotes, List.foldl_append]
  cases hmode : cs.foldl Mode.next .between with
  | between => rfl
  | inWord text => rfl
  | inQuotes name =>
    -- a quote would close the name, where by itself it is read as one that opens
    rw [hmode] at hbefore
    have hopen : before ++ [.unclosed (String.ofList name)] = ts ++ [] :=
      (hbefore []).symm.trans (h [])
    have hquote : before ++ [.quoted (String.ofList name)] = ts ++ [.unclosed ""] :=
      (hbefore ['"']).symm.trans (h ['"'])
    have hlength := congrArg List.length hquote
    rw [← List.append_nil ts, ← hopen] at hlength
    simp at hlength
  | afterQuote name => rfl
  | afterHyphen => rfl
  | inComment => rfl

/-- A comment goes on as long as its line. -/
theorem inComment_of_not_isLineBreak (h : ∀ c ∈ cs, isLineBreak c = false) :
    cs.foldl Mode.next .inComment = .inComment ∧ tokensFrom .inComment cs = [] := by
  induction cs with
  | nil => exact ⟨rfl, rfl⟩
  | cons c cs ih =>
    obtain ⟨hc, hcs⟩ := List.forall_mem_cons.1 h
    have hnext : Mode.continue? .inComment c = some .inComment := by
      rw [Mode.continue?, hc]
      rfl
    rw [List.foldl_cons, Mode.next, hnext, tokensFrom_of_continue?_eq_some hnext]
    exact ih hcs

/-! ## Words -/

/-- Whether a text is one bare word. -/
def isWord : List Char → Bool
  | [] => false
  | c :: cs => isWordStart c && cs.all isWordRest

theorem begin_of_isWordStart (h : isWordStart c = true) :
    Mode.begin c = .inWord [c] ∧ markOf c = [] := by
  have hquote : c ≠ '"' := by
    rintro rfl
    revert h
    decide
  have hhyphen : c ≠ '-' := by
    rintro rfl
    revert h
    decide
  have hbegin : Mode.begin c = .inWord [c] := by
    rw [Mode.begin, if_neg hquote, if_neg hhyphen, if_pos h]
  exact ⟨hbegin, by simp [markOf, hbegin]⟩

/-- A word goes on as long as there are characters that may stand within words. -/
theorem tokensFrom_inWord (text : List Char) (h : cs.all isWordRest = true) :
    tokensFrom (.inWord text) (cs ++ rest) = tokensFrom (.inWord (text ++ cs)) rest := by
  induction cs generalizing text with
  | nil => rw [List.nil_append, List.append_nil]
  | cons c cs ih =>
    obtain ⟨hc, hcs⟩ := Bool.and_eq_true_iff.1 h
    have hnext : Mode.continue? (.inWord text) c = some (.inWord (text ++ [c])) := by
      rw [Mode.continue?, if_pos hc]
    rw [List.cons_append, tokensFrom_of_continue?_eq_some hnext, ih _ hcs, List.append_assoc,
      List.singleton_append]

/-- Whether a text begins with nothing that could belong to a word or an identifier in front. -/
def separates : List Char → Bool
  | [] => true
  | c :: _ => c ≠ '"' && !isWordRest c

theorem tokensFrom_of_separates (h : separates rest = true) {text : List Char} :
    tokensFrom (.inWord text) rest = .word (fold text) :: tokensFrom .between rest ∧
      tokensFrom (.afterQuote text) rest =
        .quoted (String.ofList text) :: tokensFrom .between rest := by
  cases rest with
  | nil => exact ⟨rfl, rfl⟩
  | cons c rest =>
    simp only [separates, Bool.and_eq_true, decide_eq_true_eq, Bool.not_eq_true'] at h
    obtain ⟨hquote, hword⟩ := h
    constructor
    · exact tokensFrom_of_continue?_eq_none (by simp [Mode.continue?, hword])
    · exact tokensFrom_of_continue?_eq_none (by simp [Mode.continue?, hquote])

/-- A word ends in front of a character that separates. -/
theorem tokensFrom_word (h : isWord cs = true) (hrest : separates rest = true) :
    tokensFrom .between (cs ++ rest) = .word (fold cs) :: tokensFrom .between rest := by
  cases cs with
  | nil => cases h
  | cons c cs =>
    obtain ⟨hc, hcs⟩ := Bool.and_eq_true_iff.1 h
    obtain ⟨hbegin, hmark⟩ := begin_of_isWordStart hc
    rw [List.cons_append, tokensFrom_between_cons, hbegin, hmark, List.nil_append,
      tokensFrom_inWord _ hcs, (tokensFrom_of_separates hrest).1, List.singleton_append]

/-! ## Identifiers -/

/-- A quote that is written twice leaves the reader inside the quotes. -/
theorem tokensFrom_doubled (name cs rest : List Char) :
    tokensFrom (.inQuotes name) (doubled cs ++ '"' :: rest) =
      tokensFrom (.afterQuote (name ++ cs)) rest := by
  induction cs generalizing name with
  | nil => rw [doubled, List.nil_append, List.append_nil, tokensFrom_of_continue?_eq_some rfl]
  | cons c cs ih =>
    by_cases hc : c = '"'
    · subst c
      rw [doubled, if_pos rfl, List.cons_append, List.cons_append,
        tokensFrom_of_continue?_eq_some rfl, tokensFrom_of_continue?_eq_some rfl, ih,
        List.append_assoc, List.singleton_append]
    · have hnext : Mode.continue? (.inQuotes name) c = some (.inQuotes (name ++ [c])) := by
        rw [Mode.continue?, if_neg hc]
      rw [doubled, if_neg hc, List.cons_append, tokensFrom_of_continue?_eq_some hnext, ih,
        List.append_assoc, List.singleton_append]

/-- So does an identifier between quotes, whatever it is made of. -/
theorem tokensFrom_quote (s : String) (hrest : separates rest = true) :
    tokensFrom .between ((quote s).toList ++ rest) = .quoted s :: tokensFrom .between rest := by
  have hquote : (quote s).toList ++ rest = '"' :: (doubled s.toList ++ '"' :: rest) := by
    simp [quote]
  rw [hquote, tokensFrom_between_cons]
  show tokensFrom (.inQuotes []) (doubled s.toList ++ '"' :: rest) = _
  rw [tokensFrom_doubled, List.nil_append, (tokensFrom_of_separates hrest).2, String.ofList_toList]

/-- The token that an identifier is read as. -/
def identifierToken (s : String) : Token :=
  if isBare s && !isReserved s then .word s else .quoted s

theorem isWordStart_of_isBareStart (h : isBareStart c = true) : isWordStart c = true := by
  simp only [isBareStart, isWordStart, Bool.or_eq_true, decide_eq_true_eq] at h ⊢
  rcases h with hlower | hunderscore
  · exact .inl (.inl (Bool.or_eq_true_iff.2 (.inr hlower)))
  · exact .inl (.inr hunderscore)

theorem isWordRest_of_isBareRest (h : isBareRest c = true) : isWordRest c = true := by
  simp only [isBareRest, isWordRest, Bool.or_eq_true] at h ⊢
  exact h.imp_left (Or.imp_left isWordStart_of_isBareStart)

/-- An identifier that may be written bare is a word for the reader. -/
theorem isWord_of_isBare {s : String} (h : isBare s = true) : isWord s.toList = true := by
  unfold isBare at h
  split at h
  next => cases h
  next c rest heq =>
    obtain ⟨hc, hrest⟩ := Bool.and_eq_true_iff.1 h
    rw [heq, isWord, isWordStart_of_isBareStart hc, Bool.true_and, List.all_eq_true]
    exact fun d hd => isWordRest_of_isBareRest (List.all_eq_true.1 hrest d hd)

/-- A character of a bare identifier is in lower case already. -/
theorem toLower_of_isBareRest (h : isBareRest c = true) : c.toLower = c := by
  have hc := toNat_of_isBareRest h
  have hupper : ¬ (c.val ≥ 'A'.val ∧ c.val ≤ 'Z'.val) := by
    rintro ⟨hlow, hhigh⟩
    have hlow' : 65 ≤ c.toNat := hlow
    have hhigh' : c.toNat ≤ 90 := hhigh
    omega
  exact dif_neg hupper

/-- Folding leaves a bare identifier alone. -/
theorem fold_of_isBare {s : String} (h : isBare s = true) : fold s.toList = s := by
  have hmap : s.toList.map Char.toLower = s.toList.map id :=
    List.map_congr_left fun c hc => toLower_of_isBareRest (isBareRest_of_isBare h c hc)
  rw [fold, hmap, List.map_id, String.ofList_toList]

/-- Either spelling of an identifier is read as one token. -/
theorem tokensFrom_render (s : String) (hrest : separates rest = true) :
    tokensFrom .between ((render s).toList ++ rest) =
      identifierToken s :: tokensFrom .between rest := by
  unfold render identifierToken
  split
  next hbare =>
    have hbare' := (Bool.and_eq_true_iff.1 hbare).1
    rw [tokensFrom_word (isWord_of_isBare hbare') hrest, fold_of_isBare hbare']
  next => exact tokensFrom_quote s hrest

end Sql

end GrantPlan
