import SqlScribe.Proofs.Reading

/-!
# Names without quotes

A name that is written as it stands has to come back as itself: a reader takes the longest run of
word characters, and takes it for a keyword if it is reserved.

The test for a word looks at a name up to one line break at its end (`dropFinalBreak`), and the
reserved words are looked up with that break in place. So the names without quotes are the words
that are neither reserved nor folded, and the same with a line break behind them. Of these exactly
the former are read back; of the latter the break is left over, and the word before it may be a
keyword.
-/

namespace SqlScribe

/-- A word: a letter or the underscore, and then letters, digits and underscores. -/
def IsWord : List Char → Prop
  | [] => False
  | c :: rest => isWordStart c = true ∧ ∀ x ∈ rest, isWordChar x = true

/-- A name in capitals. -/
def capitals (cs : List Char) : String := String.ofList (cs.map Char.toUpper)

/-- What a reader takes a word for. -/
inductive WordToken where
  | keyword (word : String)
  | identifier (name : String)
deriving DecidableEq

namespace Dialect

/-- The characters that continue a word when a dialect is read. All dialects add the dollar sign and
what is not ASCII to those of plain words, SQL Server two signs more. -/
def continues (d : Dialect) (c : Char) : Bool :=
  isWordChar c || c = '$' || 128 ≤ c.toNat || d = .mssql && (c = '@' || c = '#')

/-- What a word stands for. PostgreSQL folds it to small letters. -/
def tokenOf (d : Dialect) (word : List Char) : WordToken :=
  if d.isReserved (capitals word) then .keyword (capitals word)
  else .identifier (String.ofList (if d = .postgres then word.map Char.toLower else word))

/-- The word that stands first, as long as it can be, and what follows it. -/
def readWord (d : Dialect) : List Char → Option (WordToken × List Char)
  | [] => none
  | c :: cs =>
    if isWordStart c then some (d.tokenOf (c :: cs.takeWhile d.continues), cs.dropWhile d.continues)
    else none

/-- Whether characters end the word before them. -/
def Ends (d : Dialect) (after : List Char) : Prop :=
  ∀ c, after.head? = some c → d.continues c = false

/-- A name comes back as one identifier, and everything behind it is left. -/
def ReadsBack (d : Dialect) (name : String) : Prop :=
  ∀ after, d.Ends after → d.readWord (name.toList ++ after) = some (.identifier name, after)

/-- Whether a name may stand without quotes: it is neither reserved nor would it be folded. -/
def Keeps (d : Dialect) (name : String) : Prop :=
  d.isReserved (capitals name.toList) = false ∧
    (d = .postgres → ∀ c ∈ name.toList, c.isUpper = false)

end Dialect

variable {d : Dialect} {cs after : List Char} {name : String}

/-! ## Words -/

theorem continues_of_isWordChar {c : Char} (h : isWordChar c = true) : d.continues c = true := by
  simp [Dialect.continues, h]

theorem not_isWordChar_break : isWordChar '\n' = false := by decide

theorem IsWord.isWordChar (h : IsWord cs) {c : Char} (hc : c ∈ cs) : isWordChar c = true := by
  cases cs with
  | nil => cases hc
  | cons c' rest =>
    rcases List.mem_cons.mp hc with rfl | hc
    · exact isWordChar_of_isWordStart h.1
    · exact h.2 c hc

/-- A word does not end in a line break. -/
theorem IsWord.getLast?_ne (h : IsWord cs) : cs.getLast? ≠ some '\n' := by
  intro hlast
  have hbreak := h.isWordChar (List.mem_of_getLast? hlast)
  rw [not_isWordChar_break] at hbreak
  cases hbreak

theorem isPlainWord_iff : isPlainWord cs = true ↔ IsWord (dropFinalBreak cs) := by
  unfold isPlainWord
  cases dropFinalBreak cs with
  | nil => simp [IsWord]
  | cons c rest => simp [IsWord]

/-- The names that pass as words: the words, and the words with a line break. -/
theorem isPlainWord_iff_exists :
    isPlainWord cs = true ↔ ∃ word, IsWord word ∧ (cs = word ∨ cs = word ++ ['\n']) := by
  rw [isPlainWord_iff]
  constructor
  · intro h
    refine ⟨_, h, ?_⟩
    unfold dropFinalBreak
    split
    next hlast =>
      obtain ⟨word, rfl⟩ := List.getLast?_eq_some_iff.mp hlast
      exact .inr (by rw [List.dropLast_concat])
    next => exact .inl rfl
  · rintro ⟨word, hword, rfl | rfl⟩
    · rwa [dropFinalBreak, if_neg hword.getLast?_ne]
    · rwa [dropFinalBreak, if_pos List.getLast?_concat, List.dropLast_concat]

/-! ## Quotes -/

theorem length_lt_quote (d : Dialect) (name : String) :
    name.toList.length < (d.quote name).toList.length := by
  have body := length_le_length_doubled d.closeQuote name.toList
  rw [toList_quote, List.length_cons, List.length_append]
  omega

/-- No name is its own quoted form. -/
theorem quote_ne (d : Dialect) (name : String) : d.quote name ≠ name := by
  intro h
  have := length_lt_quote d name
  rw [h] at this
  exact Nat.lt_irrefl _ this

/-- A name is left as it is exactly if nothing asks for quotes. -/
theorem identifier_plain_eq_iff :
    (Style.plain d).identifier name = name ↔ isPlainWord name.toList = true ∧ d.Keeps name := by
  have bare : (Style.plain d).identifier name = name ↔ d.isBare name = true := by
    unfold Style.identifier
    show (if (false || !d.isBare name) = true then d.quote name else name) = name ↔ _
    cases d.isBare name with
    | true => simp
    | false => simpa using quote_ne d name
  rw [bare, Dialect.Keeps, capitals, Dialect.isBare, Bool.and_eq_true, Bool.and_eq_true,
    Bool.not_eq_true', Bool.not_eq_true', Dialect.folds, and_assoc]
  simp

/-! ## Reading -/

/-- The longest run of word characters before an end is the word itself. -/
theorem readWord_append (h : IsWord cs) (hafter : d.Ends after) :
    d.readWord (cs ++ after) = some (d.tokenOf cs, after) := by
  cases cs with
  | nil => cases h
  | cons c rest =>
    have run : ∀ x ∈ rest, d.continues x = true := fun x hx => continues_of_isWordChar (h.2 x hx)
    have stop : after.takeWhile d.continues = [] ∧ after.dropWhile d.continues = after := by
      cases after with
      | nil => exact ⟨rfl, rfl⟩
      | cons x xs => simp [hafter x rfl]
    rw [List.cons_append, Dialect.readWord, if_pos h.1, List.takeWhile_append_of_pos run,
      List.dropWhile_append_of_pos run, stop.1, stop.2, List.append_nil]

/-- A name that is neither reserved nor folded is an identifier with its own spelling. -/
theorem tokenOf_of_keeps (h : d.Keeps name) : d.tokenOf name.toList = .identifier name := by
  obtain ⟨hfree, hfold⟩ := h
  rw [Dialect.tokenOf, if_neg (by rw [hfree]; exact Bool.false_ne_true)]
  split
  next hd =>
    have small : name.toList.map Char.toLower = name.toList := by
      refine (List.map_congr_left fun c hc => ?_).trans (List.map_id _)
      have := hfold hd c hc
      unfold Char.isUpper at this
      unfold Char.toLower
      grind
    rw [small, String.ofList_toList]
  next => rw [String.ofList_toList]

theorem ends_break (d : Dialect) (after : List Char) : d.Ends ('\n' :: after) := by
  intro c hc
  cases hc
  cases d <;> decide

theorem readsBack_of_isWord (hword : IsWord name.toList) (h : d.Keeps name) :
    d.ReadsBack name := by
  intro after hafter
  rw [readWord_append hword hafter, tokenOf_of_keeps h]

/-- A line break at the end of a name is not read with it. -/
theorem not_readsBack_of_break {word : List Char} (hword : IsWord word)
    (h : name.toList = word ++ ['\n']) : ¬d.ReadsBack name := by
  intro hread
  have whole := hread [] (fun c hc => by cases hc)
  rw [List.append_nil, h, readWord_append hword (ends_break d [])] at whole
  have left := congrArg (Option.map Prod.snd) whole
  cases left

/-- **The names that a dialect leaves without quotes are the words, with or without one line break
behind them, that it neither reserves nor folds; of these the words, and no others, come back as one
identifier with the spelling of the name.** -/
theorem Style.identifier_plain_eq_iff_readsBack (d : Dialect) (name : String) :
    ((Style.plain d).identifier name = name ↔
      (∃ word, IsWord word ∧ (name.toList = word ∨ name.toList = word ++ ['\n'])) ∧
        d.Keeps name) ∧
    ((Style.plain d).identifier name = name ∧ d.ReadsBack name ↔
      IsWord name.toList ∧ d.Keeps name) := by
  rw [identifier_plain_eq_iff, isPlainWord_iff_exists]
  refine ⟨Iff.rfl, ?_, ?_⟩
  · rintro ⟨⟨⟨word, hword, hname | hname⟩, hkeeps⟩, hread⟩
    · exact ⟨hname ▸ hword, hkeeps⟩
    · exact absurd hread (not_readsBack_of_break hword hname)
  · rintro ⟨hword, hkeeps⟩
    exact ⟨⟨⟨_, hword, .inl rfl⟩, hkeeps⟩, readsBack_of_isWord hword hkeeps⟩

/-- A reserved word with a line break behind it is left without quotes, and read as a keyword. -/
example : (Style.plain .sqlite).identifier "order\n" = "order\n" ∧
    Dialect.sqlite.readWord "order\n".toList = some (.keyword "ORDER", ['\n']) := by
  decide +kernel

end SqlScribe
