import Mathlib.Order.Filter.AtTopBot.Basic
import SqlScribe.Proofs.Formula

/-!
# What is read back

The reader of formulas meets the layout of formulas. There are three things to read: an operand
ends before a blank, a comma or a parenthesis, a condition only where a connective or the end of a
formula follows, and a whole formula only before a comma or a closing parenthesis. `Operand`,
`Condition` and `Whole` say that a fragment is read as such in front of whatever may follow, and
each comes from the one before it by the way in which the layout sets parentheses. The reader needs
a bound on its levels, and all bounds from some one on give the same (`ReadsAs`).

A word decides twice: `NOT` in front of a condition and `DISTINCT` in front of the arguments of a
call. A name without quotes cannot be mistaken for them, because both are reserved in all dialects,
and neither can a call, because no blank stands behind its name.
-/

namespace SqlScribe

open Filter (atTop)
open List (Forall₂)

/-! ## Enough levels -/

section

variable {α : Type} {reader : Nat → List Piece → Option (α × List Piece)}
  {ps rest rest' : List Piece} {a b : α}

/-- Whether a reader takes something off the front of pieces, if it may go down far enough. -/
def ReadsAs (reader : Nat → List Piece → Option (α × List Piece)) (ps : List Piece) (a : α)
    (rest : List Piece) : Prop :=
  ∀ᶠ n in atTop, reader n ps = some (a, rest)

/-- What a level reads once the levels below have read their parts. -/
theorem readsAs_of {P : Nat → Prop} (parts : ∀ᶠ n in atTop, P n)
    (h : ∀ n, P n → reader (n + 1) ps = some (a, rest)) : ReadsAs reader ps a rest := by
  obtain ⟨bound, hbound⟩ := Filter.eventually_atTop.mp parts
  refine Filter.eventually_atTop.mpr ⟨bound + 1, fun n hn => ?_⟩
  obtain ⟨m, rfl⟩ := Nat.exists_eq_add_of_le' (Nat.le_of_add_left_le hn)
  exact h m (hbound m (Nat.le_of_succ_le_succ hn))

/-- What a level reads by itself. -/
theorem readsAs_of_level (h : ∀ n, reader (n + 1) ps = some (a, rest)) :
    ReadsAs reader ps a rest :=
  readsAs_of (Filter.Eventually.of_forall fun _ => trivial) fun n _ => h n

/-- What is read does not depend on how far down the reader may go. -/
theorem ReadsAs.unique (h : ReadsAs reader ps a rest) (h' : ReadsAs reader ps b rest') : a = b := by
  obtain ⟨n, hn, hn'⟩ := (h.and h').exists
  exact (Prod.mk.inj (Option.some.inj (hn.symm.trans hn'))).1

end

variable {style : Style} {d : Dialect} {ps : List Piece} {a : Expr} {f : Fragment}

/-! ## What may follow -/

/-- Whether pieces may follow a whole formula. -/
def Closes (ps : List Piece) : Prop :=
  ∀ piece, ps.head? = some piece → piece = .char ')' ∨ piece = .char ','

/-- Whether pieces may follow a condition. -/
def Stops (ps : List Piece) : Prop :=
  Closes ps ∨ ∃ (op : Connective) (rest : List Piece), ps = spelt op.separator ++ rest

/-- Whether pieces may follow an operand. -/
def Ends (ps : List Piece) : Prop :=
  ∀ piece, ps.head? = some piece → piece = .char ' ' ∨ piece = .char ')' ∨ piece = .char ','

/-- A closing parenthesis ends a formula. -/
theorem closes_paren (ps : List Piece) : Closes (.char ')' :: ps) := by
  rintro _ ⟨⟩
  exact .inl rfl

theorem ends_blank (ps : List Piece) : Ends (.char ' ' :: ps) := by
  rintro _ ⟨⟩
  exact .inl rfl

/-- A connective stands between blanks. -/
theorem Connective.spelt_separator (op : Connective) :
    spelt op.separator = .char ' ' :: spelt (op.text ++ " ") := by
  simp [spelt, separator]

/-- Where a formula may end, a condition may. -/
theorem Closes.stops (h : Closes ps) : Stops ps := .inl h

/-- Where a condition may end, an operand may. -/
theorem Stops.ends (h : Stops ps) : Ends ps := by
  rcases h with h | ⟨op, rest, rfl⟩
  · exact fun piece hp => .inr (h piece hp)
  · rw [op.spelt_separator]
    exact ends_blank _

/-- A name is over where an operand may end. -/
theorem Ends.isPathChar (h : Ends ps) : ∀ c, ps.head? = some (.char c) → isPathChar c = false := by
  intro c hc
  rcases h _ hc with h | h | h <;> cases h <;> decide

/-- What may follow an operand parts it from its last name, quoted or not. -/
theorem Ends.parts (h : Ends ps) (d : Dialect) : Parts d ps := by
  intro c hc
  rcases h _ hc with h | h | h <;> cases h <;> cases d <;> decide

/-- Nothing begins with a text where no text begins. -/
theorem readFirst_nil {α : Type} {text : α → String} {as : List α}
    (h : ∀ a ∈ as, (text a).toList ≠ []) : readFirst text as [] = none := by
  refine List.findSome?_eq_none_iff.mpr fun a ha => ?_
  cases hs : (text a).toList with
  | nil => exact absurd hs (h a ha)
  | cons c cs => rfl

/-- Each way in which a condition goes on is recognized by its words. -/
theorem readTailText_text (t : Tail) (ps : List Piece) :
    readTailText (spelt t.text ++ ps) = some (t, ps) :=
  readFirst_spelt t.mem_all fun t' ht' h => h.elim (t'.eq_of_isPrefix ht' t t.mem_all)
    fun h => (t.eq_of_isPrefix t.mem_all t' ht' h).symm

/-- Each connective is recognized. -/
theorem readConnective_separator (op : Connective) (ps : List Piece) :
    readConnective (spelt op.separator ++ ps) = some (op, ps) := by
  have apart : ∀ op' ∈ [Connective.and, .or], op'.separator.toList <+: op.separator.toList ∨
      op.separator.toList <+: op'.separator.toList → op' = op := by
    -- neither separator begins the other
    cases op <;> decide +kernel
  exact readFirst_spelt (by cases op <;> decide) apart

/-- No text begins with a piece that stands behind a whole formula, if none does with its
character. -/
theorem readFirst_closes {α : Type} {text : α → String} {as : List α} (h : Closes ps)
    (hapart : ∀ b ∈ as, ∀ s ∈ [")", ","],
      ¬(text b).toList <+: s.toList ∧ ¬s.toList <+: (text b).toList) :
    readFirst text as ps = none := by
  cases ps with
  | nil =>
    refine readFirst_nil fun b hb hnil => (hapart b hb ")" (by decide)).1 ?_
    rw [hnil]
    exact List.nil_prefix
  | cons piece rest =>
    rcases h piece rfl with rfl | rfl
    · exact readFirst_eq_none [')'] fun b hb => hapart b hb ")" (by decide)
    · exact readFirst_eq_none [','] fun b hb => hapart b hb "," (by decide)

/-- There is no connective where the formula ends. -/
theorem readConnective_of_closes (h : Closes ps) : readConnective ps = none :=
  readFirst_closes h (by decide +kernel)

/-- Neither a connective nor an end is taken for the rest of a condition. -/
theorem readTailText_of_stops (h : Stops ps) : readTailText ps = none := by
  rcases h with h | ⟨op, rest, rfl⟩
  · exact readFirst_closes h fun t ht s hs =>
      Tail.not_isPrefix t ht s (List.mem_of_mem_take (i := 2) hs)
  · exact readFirst_eq_none _ fun t ht => Tail.not_isPrefix t ht _ (by cases op <;> decide)

/-! ## Words -/

/-- The words that decide how to read on. -/
def keywords : List String := ["NOT", "DISTINCT"]

/-- The words that decide how to read on are reserved everywhere, and are no qualified names. -/
theorem isReserved_keywords (d : Dialect) : ∀ w ∈ keywords,
    d.isReserved (String.ofList (w.toList.map Char.toUpper)) = true ∧ '.' ∉ w.toList := by
  cases d <;> decide +kernel

/-- Another word is no keyword. -/
theorem afterWord_of_ne {w : String} (h : (run isPathChar ps).1 ≠ w.toList) :
    afterWord w ps = none := by
  unfold afterWord
  split
  next cs rest hrun => rw [if_neg]; rwa [hrun] at h
  · rfl

/-- A keyword has a blank behind it. -/
theorem afterWord_of_head {w : String}
    (h : (run isPathChar ps).2.head? ≠ some (.char ' ')) : afterWord w ps = none := by
  unfold afterWord
  split
  next cs rest hrun => rw [hrun] at h; exact absurd rfl h
  · rfl

/-- A keyword is taken off together with its blank. -/
theorem afterWord_spelt {w : String} (h : w.toList.all isPathChar = true) (ps : List Piece) :
    afterWord w (spelt (w ++ " ") ++ ps) = some ps := by
  -- the run of characters of a name stops at the blank
  have taken : run isPathChar (charPieces w.toList ++ .char ' ' :: ps) =
      (w.toList, .char ' ' :: ps) := by
    rw [run_append (List.all_eq_true.mp h), run_of_head (ends_blank ps).isPathChar, List.append_nil]
  have pieces : spelt (w ++ " ") ++ ps = charPieces w.toList ++ .char ' ' :: ps := by
    simp [spelt]
  rw [pieces, afterWord, taken]
  exact if_pos rfl

/-! ## Columns -/

theorem isPathChar_of_isNameChar {c : Char} (h : isNameChar c = true) : isPathChar c = true := by
  rw [isPathChar, h, Bool.true_or]

theorem isPathChar_openQuote (d : Dialect) : isPathChar d.openQuote = false := by
  cases d <;> decide

/-- A name has no word in front, or it is the beginning of one that is not reserved. -/
theorem run_identifier (style : Style) (s : String) (ps : List Piece) :
    (∃ rest, run isPathChar (spelt (style.identifier s) ++ ps) =
        ([], .char style.dialect.openQuote :: rest)) ∨
      style.dialect.isReserved (String.ofList (s.toList.map Char.toUpper)) = false ∧
        s.toList ≠ [] ∧ run isPathChar (spelt (style.identifier s) ++ ps) =
          (s.toList ++ (run isPathChar ps).1, (run isPathChar ps).2) := by
  rcases identifier_cases style s with hs | ⟨hs, hword, hreserved⟩
  · rw [hs, spelt_quote]
    refine .inl ⟨_, run_of_head ?_⟩
    rintro _ ⟨⟩
    exact isPathChar_openQuote _
  · obtain ⟨hne, hall⟩ := isNameChar_of_isPlainWord hword
    refine .inr ⟨hreserved, hne, ?_⟩
    rw [hs]
    exact run_append (fun c hc => isPathChar_of_isNameChar (hall c hc)) ps

/-- No name begins with a closing parenthesis. -/
theorem head_identifier (style : Style) (s : String) (ps : List Piece) :
    (spelt (style.identifier s) ++ ps).head? ≠ some (.char ')') := by
  intro hhead
  have hrun : run isPathChar (spelt (style.identifier s) ++ ps) =
      ([], spelt (style.identifier s) ++ ps) :=
    run_of_head (by rw [hhead]; rintro _ ⟨⟩; decide)
  rcases run_identifier style s ps with ⟨rest, hquoted⟩ | ⟨-, hne, hword⟩
  · rw [(Prod.mk.inj (hrun.symm.trans hquoted)).2] at hhead
    exact absurd (Piece.char.inj (Option.some.inj hhead)) (by cases style.dialect <;> decide)
  · exact hne (List.append_eq_nil_iff.mp (Prod.mk.inj (hrun.symm.trans hword)).1.symm).1

/-- Whether no value and no parenthesis stands behind the word in front. -/
def IsOpen (ps : List Piece) : Prop :=
  ∀ piece, (run isPathChar ps).2.head? = some piece → ∃ c, piece = .char c ∧ c ≠ '('

/-- Nothing may follow an operand that would make a call of it. -/
theorem Ends.isOpen (h : Ends ps) : IsOpen ps := by
  intro piece hp
  rw [run_of_head h.isPathChar] at hp
  rcases h piece hp with rfl | rfl | rfl <;> exact ⟨_, rfl, by decide⟩

theorem isOpen_point (h : IsOpen ps) : IsOpen (.char '.' :: ps) := h

/-- A name, quoted or not, opens neither parentheses nor a call. -/
theorem isOpen_identifier (h : IsOpen ps) (s : String) :
    IsOpen (spelt (style.identifier s) ++ ps) := by
  intro piece hp
  rcases run_identifier style s ps with ⟨rest, hrun⟩ | ⟨-, -, hrun⟩
  · rw [hrun] at hp
    cases hp
    exact ⟨_, rfl, by cases style.dialect <;> decide⟩
  · rw [hrun] at hp
    exact h piece hp

/-- What has neither is read as a column. -/
theorem readOperand_of_isOpen (h : IsOpen ps) (n : Nat) :
    readOperand d (n + 1) ps = readColumn d ps := by
  rw [readOperand]
  split
  next rest hrun =>
    obtain ⟨c, hc, hne⟩ := h (.char '(') (by rw [hrun]; rfl)
    cases hc
    exact absurd rfl hne
  next v rest hrun =>
    obtain ⟨c, hc, -⟩ := h (.value v) (by rw [hrun]; rfl)
    cases hc
  next c cs rest hrun =>
    obtain ⟨c, hc, hne⟩ := h (.char '(') (by rw [hrun]; rfl)
    cases hc
    exact absurd rfl hne
  · rfl

/-- The pieces of a column. -/
def columnPieces (style : Style) (table : Option String) (name : String) : List Piece :=
  match table with
  | none => spelt (style.identifier name)
  | some t => spelt (style.identifier t) ++ .char '.' :: spelt (style.identifier name)

/-- The column that they are written for. -/
def columnOf (table : Option String) (name : String) : Expr :=
  .column (table.elim .absent .word) (.word name)

/-- A column is read back, with its qualifier or without one. -/
theorem readColumn_columnPieces (h : Ends ps) (table : Option String) (name : String) :
    readColumn style.dialect (columnPieces style table name ++ ps) =
      some (columnOf table name, ps) := by
  have last : readName style.dialect (spelt (style.identifier name) ++ ps) = some (name, ps) :=
    readName_identifier (h.parts _) name
  cases table with
  | none =>
    rw [columnPieces, readColumn, last]
    simp only [Option.bind_eq_bind, Option.bind_some]
    -- without a qualifier the name must not seem to be one, so no point may follow
    split
    · rcases h _ rfl with hc | hc | hc <;> cases hc
    · rfl
  | some t =>
    -- the point parts the qualifier from the name behind it
    have point : Parts style.dialect (.char '.' :: (spelt (style.identifier name) ++ ps)) := by
      rintro _ ⟨⟩
      cases style.dialect <;> decide
    rw [columnPieces, readColumn, List.append_assoc, List.cons_append, readName_identifier point t]
    simp only [Option.bind_eq_bind, Option.bind_some, last]
    rfl

theorem isOpen_columnPieces (h : Ends ps) (table : Option String) (name : String) :
    IsOpen (columnPieces style table name ++ ps) := by
  cases table with
  | none => exact isOpen_identifier h.isOpen name
  | some t =>
    rw [columnPieces, List.append_assoc]
    exact isOpen_identifier (isOpen_point (isOpen_identifier h.isOpen name)) t

/-- No column begins with a word that decides how to read on. -/
theorem afterWord_columnPieces (h : Ends ps) (table : Option String) (name : String) {w : String}
    (hw : w ∈ keywords) : afterWord w (columnPieces style table name ++ ps) = none := by
  obtain ⟨hreserved, hpoint⟩ := isReserved_keywords style.dialect w hw
  have hne : w.toList ≠ [] := by
    simp only [keywords, List.mem_cons, List.not_mem_nil, or_false] at hw
    rcases hw with rfl | rfl <;> decide
  refine afterWord_of_ne ?_
  -- a bare name would have to be the reserved word, and a qualified one to hold a point
  cases table with
  | none =>
    rcases run_identifier style name ps with ⟨rest, hrun⟩ | ⟨hfree, -, hrun⟩
    · rw [columnPieces, hrun]
      exact hne.symm
    · rw [columnPieces, hrun, run_of_head h.isPathChar, List.append_nil]
      intro he
      have he : name.toList = w.toList := he
      rw [he, hreserved] at hfree
      cases hfree
  | some t =>
    rw [columnPieces, List.append_assoc]
    rcases run_identifier style t (.char '.' :: (spelt (style.identifier name) ++ ps)) with
      ⟨rest, hrun⟩ | ⟨-, -, hrun⟩
    · rw [List.cons_append, hrun]
      exact hne.symm
    · rw [List.cons_append, hrun]
      intro he
      exact hpoint (he ▸ List.mem_append_right _ List.mem_cons_self)

/-! ## Operands, conditions and whole formulas -/

/-- Whether pieces begin an argument of a call, and not the word in front of it or the end. -/
structure Begins (ps : List Piece) : Prop where
  word : afterWord "DISTINCT" ps = none
  head : ps.head? ≠ some (.char ')')

/-- Whether a fragment is read as an operand, in front of what may follow one. -/
structure Operand (style : Style) (a : Expr) (f : Fragment) : Prop where
  read : ∀ ps, Ends ps → ReadsAs (readOperand style.dialect) (f.pieces style ++ ps) a ps
  notNegated : ∀ ps, Ends ps → afterWord "NOT" (f.pieces style ++ ps) = none
  begins : ∀ ps, Ends ps → Begins (f.pieces style ++ ps)

/-- Whether a fragment is read as a condition. -/
structure Condition (style : Style) (a : Expr) (f : Fragment) : Prop where
  read : ∀ ps, Stops ps → ReadsAs (readCondition style.dialect) (f.pieces style ++ ps) a ps
  begins : ∀ ps, Stops ps → Begins (f.pieces style ++ ps)

/-- Whether a fragment is read as a whole formula. -/
structure Whole (style : Style) (a : Expr) (f : Fragment) : Prop where
  read : ∀ ps, Closes ps → ReadsAs (readWhole style.dialect) (f.pieces style ++ ps) a ps
  begins : ∀ ps, Closes ps → Begins (f.pieces style ++ ps)

theorem run_paren (ps : List Piece) : run isPathChar (.char '(' :: ps) = ([], .char '(' :: ps) :=
  rfl

/-- What begins with a parenthesis begins with no word. -/
theorem afterWord_paren (w : String) (ps : List Piece) : afterWord w (.char '(' :: ps) = none :=
  afterWord_of_head (by rw [run_paren]; nofun)

/-- A whole formula between parentheses is an operand. -/
theorem Whole.parens (h : Whole style a f) : Operand style a f.parens where
  read ps _ := by
    refine readsAs_of (h.read (.char ')' :: ps) (closes_paren ps)) fun n inner => ?_
    rw [Fragment.pieces_parens, List.cons_append, List.append_assoc, List.singleton_append,
      readOperand, run_paren]
    simp only [Option.bind_eq_bind, inner, Option.bind_some]
    rfl
  notNegated ps _ := by
    rw [Fragment.pieces_parens]
    exact afterWord_paren _ _
  begins ps _ := by
    rw [Fragment.pieces_parens]
    exact ⟨afterWord_paren _ _, by simp⟩

/-- An operand alone is a condition where nothing goes on with it. -/
theorem readTail_of_stops (h : Stops ps) (d : Dialect) (a : Expr) :
    ReadsAs (readTail d · a) ps a ps :=
  readsAs_of_level fun n => by rw [readTail, readTailText_of_stops h]

/-- An operand by itself is a condition. -/
theorem Operand.condition (h : Operand style a f) : Condition style a f where
  read ps hps := by
    have tail := readTail_of_stops hps style.dialect a
    refine readsAs_of ((h.read ps hps.ends).and tail) fun n parts => ?_
    rw [readCondition, h.notNegated ps hps.ends]
    simp only [Option.bind_eq_bind, parts.1, Option.bind_some]
    exact parts.2
  begins ps hps := h.begins ps hps.ends

/-- A condition by itself is a whole formula. -/
theorem Condition.whole (h : Condition style a f) : Whole style a f where
  read ps hps := by
    refine readsAs_of (h.read ps hps.stops) fun n condition => ?_
    rw [readWhole]
    simp only [Option.bind_eq_bind, condition, Option.bind_some, readConnective_of_closes hps]
    rfl
  begins ps hps := h.begins ps hps.stops

/-! ## Atoms -/

/-- Columns are operands. -/
theorem operand_columnPieces (table : Option String) (name : String)
    (hf : f.pieces style = columnPieces style table name) :
    Operand style (columnOf table name) f where
  read ps hps := readsAs_of_level fun n => by
    rw [hf, readOperand_of_isOpen (isOpen_columnPieces hps table name),
      readColumn_columnPieces hps]
  notNegated ps hps := by
    rw [hf]
    exact afterWord_columnPieces hps table name (by decide)
  begins ps hps := by
    rw [hf]
    refine ⟨afterWord_columnPieces hps table name (by decide), ?_⟩
    cases table with
    | none => exact head_identifier style name ps
    | some t =>
      rw [columnPieces, List.append_assoc]
      exact head_identifier style t _

/-- Values are operands, read as the places that they are. -/
theorem operand_literal (v : Value) : Operand style (.literal v) (Fragment.bound v) where
  read ps _ := readsAs_of_level fun n => by
    rw [Fragment.pieces_bound, List.singleton_append, readOperand]
    rfl
  notNegated ps _ := afterWord_of_head nofun
  begins ps _ := ⟨afterWord_of_head nofun, nofun⟩

/-! ## Lists -/

variable {as : List Expr} {fs : List Fragment} {op : Connective}

/-- The pieces of the fragments behind the first, each behind a separator. -/
abbrev others (style : Style) (separator : String) (fs : List Fragment) : List Piece :=
  fs.flatMap fun g => spelt separator ++ g.pieces style

/-- Behind an item of a list stands a comma or the parenthesis that closes the list. -/
theorem closes_others (style : Style) (fs : List Fragment) (ps : List Piece) :
    Closes (others style ", " fs ++ .char ')' :: ps) := by
  cases fs with
  | nil => exact closes_paren ps
  | cons g fs =>
    rintro _ ⟨⟩
    exact .inr rfl

/-- The other formulas of a list are read up to its end. -/
theorem readOthers_others (h : Forall₂ (Whole style) as fs) (ps : List Piece) :
    ReadsAs (readOthers style.dialect) (others style ", " fs ++ .char ')' :: ps) as ps := by
  -- on the items behind the first, each read in front of the list that follows it
  induction h with
  | nil =>
    refine readsAs_of_level fun n => ?_
    show readOthers style.dialect (n + 1) (.char ')' :: ps) = _
    rw [readOthers]
  | @cons a g as fs hg _ ih =>
    have pieces : others style ", " (g :: fs) ++ .char ')' :: ps = .char ',' :: .char ' ' ::
        (g.pieces style ++ (others style ", " fs ++ .char ')' :: ps)) := by
      simp [others, spelt]
    refine readsAs_of ((hg.read _ (closes_others style fs ps)).and ih) fun n parts => ?_
    rw [pieces, readOthers]
    · simp only [Option.bind_eq_bind, strip, if_true, Option.bind_some, parts.1, parts.2]
      rfl
    · rintro _ ⟨⟩

/-- A list of items, up to the parenthesis that closes it, is read back. -/
theorem readItems_join (h : Forall₂ (Whole style) as fs) (ps : List Piece) :
    ReadsAs (readItems style.dialect) ((Fragment.join ", " fs).pieces style ++ .char ')' :: ps)
      as ps := by
  cases h with
  | nil =>
    refine readsAs_of_level fun n => ?_
    show readItems style.dialect (n + 1) (.char ')' :: ps) = _
    rw [readItems]
  | @cons a g as fs hg hfs =>
    have hclose := closes_others style fs ps
    -- the first item must not begin with the parenthesis that stands for an empty list
    have hhead : ∀ rest, g.pieces style ++ (others style ", " fs ++ .char ')' :: ps) =
        .char ')' :: rest → False := fun rest hrest =>
      (hg.begins _ hclose).head (by rw [hrest]; rfl)
    refine readsAs_of ((hg.read _ hclose).and (readOthers_others hfs ps)) fun n parts => ?_
    rw [Fragment.pieces_join, List.append_assoc, readItems]
    · simp only [Option.bind_eq_bind, parts.1, Option.bind_some, parts.2]
      rfl
    · exact hhead

/-- The first of the items that follow, with the separator in front of it. -/
theorem others_cons (separator : String) (g : Fragment) (fs : List Fragment) (ps : List Piece) :
    others style separator (g :: fs) ++ ps =
      spelt separator ++ (g.pieces style ++ (others style separator fs ++ ps)) := by
  simp [others]

/-- Behind a condition under a connective stands the connective again or the end of the formula. -/
theorem stops_others (style : Style) (op : Connective) (fs : List Fragment) (h : Closes ps) :
    Stops (others style op.separator fs ++ ps) := by
  cases fs with
  | nil => exact .inl h
  | cons g fs => exact .inr ⟨op, _, others_cons _ g fs ps⟩

/-- The other conditions under a connective are read up to the last. -/
theorem readMore_others (op : Connective) (h : Forall₂ (Condition style) as fs) (hps : Closes ps) :
    ReadsAs (readMore style.dialect · op) (others style op.separator fs ++ ps) as ps := by
  induction h with
  | nil =>
    have none : readConnective (others style op.separator [] ++ ps) = none :=
      readConnective_of_closes hps
    exact readsAs_of_level fun n => by rw [readMore, none]; rfl
  | @cons a g as fs hg _ ih =>
    refine readsAs_of ((hg.read _ (stops_others style op fs hps)).and ih) fun n parts => ?_
    rw [others_cons, readMore, readConnective_separator]
    simp only [if_true, Option.bind_eq_bind, parts.1, Option.bind_some, parts.2]
    rfl

/-- Conditions joined by a connective are a whole formula. -/
theorem whole_join (hf : Condition style a f)
    (hfs : Forall₂ (Condition style) as fs) (hne : as ≠ []) :
    Whole style (.logical op a as) (Fragment.join op.separator (f :: fs)) where
  read ps hps := by
    have hstops := stops_others style op fs hps
    have more := readMore_others op hfs hps
    -- there is a second condition, so the connective shows
    obtain ⟨rest, connective⟩ : ∃ rest,
        readConnective (others style op.separator fs ++ ps) = some (op, rest) := by
      cases hfs with
      | nil => exact absurd rfl hne
      | @cons _ g _ fs _ _ =>
        rw [others_cons]
        exact ⟨_, readConnective_separator op _⟩
    refine readsAs_of ((hf.read _ hstops).and more) fun n parts => ?_
    rw [Fragment.pieces_join, List.append_assoc, readWhole]
    simp only [Option.bind_eq_bind, parts.1, Option.bind_some, connective, parts.2]
    rfl
  begins ps hps := by
    rw [Fragment.pieces_join, List.append_assoc]
    exact hf.begins _ (stops_others style op fs hps)

/-! ## Conditions -/

/-- A negated operand is a condition. -/
theorem Operand.not (h : Operand style a f) : Condition style (.not a) ("NOT " ++ f) where
  read ps hps := by
    have word : afterWord "NOT" (spelt "NOT " ++ (f.pieces style ++ ps)) =
        some (f.pieces style ++ ps) := afterWord_spelt (by decide) _
    refine readsAs_of (h.read ps hps.ends) fun n operand => ?_
    rw [Fragment.pieces_append, Fragment.pieces_ofText, List.append_assoc, readCondition, word]
    simp only [Option.bind_eq_bind, operand, Option.bind_some]
    rfl
  begins ps _ := by
    have taken : (run isPathChar (spelt "NOT " ++ (f.pieces style ++ ps))).1 = ['N', 'O', 'T'] := by
      simp [spelt, run, isPathChar, isNameChar, isWordChar]
    rw [Fragment.pieces_append, Fragment.pieces_ofText, List.append_assoc]
    exact ⟨afterWord_of_ne (by rw [taken]; decide), by simp [spelt]⟩

/-- Whatever a condition goes on with begins with a blank. -/
theorem ends_tail (t : Tail) (ps : List Piece) : Ends (spelt t.text ++ ps) := by
  have blank : ∀ t ∈ Tail.all, t.text.toList.head? = some ' ' := by decide +kernel
  have ht := blank t t.mem_all
  cases hs : t.text.toList with
  | nil => rw [hs] at ht; cases ht
  | cons c cs =>
    rw [hs] at ht
    cases ht
    rw [spelt, hs]
    exact ends_blank _

/-- An operand with a tail is a condition, if the tail is read as that. -/
theorem Operand.tail (h : Operand style a f) (t : Tail) (rest : Fragment) {b : Expr} {g : Fragment}
    (hg : g.pieces style = f.pieces style ++ (spelt t.text ++ rest.pieces style))
    (hread : ∀ ps, Stops ps → ReadsAs (readTail style.dialect · a)
      (spelt t.text ++ (rest.pieces style ++ ps)) b ps) : Condition style b g where
  read ps hps := by
    have hends := ends_tail t (rest.pieces style ++ ps)
    refine readsAs_of ((h.read _ hends).and (hread ps hps)) fun n parts => ?_
    rw [hg, List.append_assoc, List.append_assoc, readCondition, h.notNegated _ hends]
    simp only [Option.bind_eq_bind, parts.1, Option.bind_some]
    exact parts.2
  begins ps hps := by
    rw [hg, List.append_assoc, List.append_assoc]
    exact h.begins _ (ends_tail t _)

/-- Tests for null are read back. -/
theorem Operand.isNull (h : Operand style a f) (negated : Bool) :
    Condition style (.isNull a (.switch negated))
      (f ++ (if negated then " IS NOT NULL" else " IS NULL" : String)) := by
  refine h.tail (.isNull negated) .empty
    (by cases negated <;> simp [Tail.text, Fragment.pieces])
    fun ps _ => readsAs_of_level fun n => ?_
  rw [readTail, readTailText_text]
  rfl

/-- Comparisons of operands are read back. -/
theorem Operand.binary {b : Expr} {g : Fragment} (hf : Operand style a f) (op : Operator)
    (hg : Operand style b g) :
    Condition style (.binary op a b) (f ++ " " ++ op.text ++ " " ++ g) := by
  refine hf.tail (.binary op) g (by simp [Tail.text, spelt]) fun ps hps => ?_
  refine readsAs_of (hg.read ps hps.ends) fun n right => ?_
  rw [readTail, readTailText_text]
  simp only [Option.bind_eq_bind, right, Option.bind_some]
  rfl

/-- Memberships in lists are read back. -/
theorem Operand.inList (h : Operand style a f) (negated : Bool)
    (hfs : Forall₂ (Whole style) as fs) :
    Condition style (.inList a as (.switch negated))
      (f ++ " " ++ keyword negated "IN" ++ " " ++ Fragment.tuple fs) := by
  refine h.tail (.inList negated) (Fragment.join ", " fs ++ ")")
    (by simp [Tail.text, spelt, Fragment.tuple]) fun ps hps => ?_
  have pieces : (Fragment.join ", " fs ++ ")").pieces style ++ ps =
      (Fragment.join ", " fs).pieces style ++ .char ')' :: ps := by
    simp [spelt]
  refine readsAs_of (readItems_join hfs ps) fun n items => ?_
  rw [readTail, readTailText_text, pieces]
  simp only [Option.bind_eq_bind, items, Option.bind_some]
  rfl

/-- Ranges are read back: the first `AND` behind `BETWEEN` belongs to the range. -/
theorem Operand.between {b c : Expr} {g h : Fragment} (hf : Operand style a f) (negated : Bool)
    (hg : Operand style b g) (hh : Operand style c h) :
    Condition style (.between a b c (.switch negated))
      (f ++ " " ++ keyword negated "BETWEEN" ++ " " ++ g ++ " AND " ++ h) := by
  refine hf.tail (.between negated) (g ++ " AND " ++ h) (by simp [Tail.text, spelt])
    fun ps hps => ?_
  have ends : Ends (spelt Connective.and.separator ++ (h.pieces style ++ ps)) :=
    Stops.ends (.inr ⟨.and, _, rfl⟩)
  have pieces : (g ++ " AND " ++ h).pieces style ++ ps =
      g.pieces style ++ (spelt Connective.and.separator ++ (h.pieces style ++ ps)) := by
    simp [spelt, Connective.separator, Connective.text]
  refine readsAs_of ((hg.read _ ends).and (hh.read ps hps.ends)) fun n parts => ?_
  rw [readTail, readTailText_text, pieces]
  simp only [Option.bind_eq_bind, parts.1, Option.bind_some]
  rw [spelt, strip_append]
  simp only [Option.bind_some, parts.2]
  rfl

/-! ## Calls -/

/-- A function has a name. -/
theorem FunctionName.capitals_ne_nil (name : FunctionName) : name.capitals.toList ≠ [] := by
  intro hnil
  have hvalid := name.upper.valid
  rw [isFunctionName, show name.upper.text = name.capitals from rfl, hnil] at hvalid
  cases hvalid

/-- The name of a function is read up to the parenthesis that opens its arguments. -/
theorem run_capitals (name : FunctionName) (ps : List Piece) :
    run isPathChar (spelt name.capitals ++ .char '(' :: ps) =
      (name.capitals.toList, .char '(' :: ps) := by
  have path : ∀ c ∈ name.capitals.toList, isPathChar c = true := by
    intro c hc
    rcases name.upper.mem_text hc with hword | rfl | rfl
    · simp [isPathChar, isNameChar, hword]
    · decide
    · decide
  rw [spelt, run_append path, run_paren, List.append_nil]

/-- No argument begins with the word that may stand in front of all. -/
theorem afterWord_join (hfs : Forall₂ (Whole style) as fs) (ps : List Piece) :
    afterWord "DISTINCT" ((Fragment.join ", " fs).pieces style ++ .char ')' :: ps) = none := by
  cases hfs with
  | nil => exact afterWord_of_head nofun
  | @cons a g as fs hg _ =>
    rw [Fragment.pieces_join, List.append_assoc]
    exact (hg.begins _ (closes_others style fs ps)).word

/-- The arguments of a call, behind the word for distinct ones if they are. -/
def argsText (distinct : Bool) (fs : List Fragment) : Fragment :=
  if distinct then "DISTINCT " ++ Fragment.join ", " fs else Fragment.join ", " fs

/-- The arguments of a call are distinct if and only if the word stands in front of them. -/
theorem afterWord_argsText (distinct : Bool) (hfs : Forall₂ (Whole style) as fs)
    (ps : List Piece) :
    afterWord "DISTINCT" ((argsText distinct fs).pieces style ++ .char ')' :: ps) =
      if distinct then some ((Fragment.join ", " fs).pieces style ++ .char ')' :: ps)
      else none := by
  cases distinct with
  | false => exact afterWord_join hfs ps
  | true =>
    have pieces : (argsText true fs).pieces style ++ .char ')' :: ps =
        spelt ("DISTINCT" ++ " ") ++ ((Fragment.join ", " fs).pieces style ++ .char ')' :: ps) := by
      simp [argsText]
    rw [pieces, afterWord_spelt (by decide)]
    rfl

/-- A call is an operand. -/
theorem operand_call (name : FunctionName) (distinct : Bool) (hfs : Forall₂ (Whole style) as fs) :
    Operand style (.call name.upper as (.switch distinct))
      (name.capitals ++ (argsText distinct fs).parens) := by
  obtain ⟨c, cs, hcs⟩ := List.exists_cons_of_ne_nil name.capitals_ne_nil
  have taken : ∀ ps,
      run isPathChar ((name.capitals ++ (argsText distinct fs).parens).pieces style ++ ps) =
        (c :: cs, .char '(' :: ((argsText distinct fs).pieces style ++ .char ')' :: ps)) := by
    intro ps
    have pieces : (name.capitals ++ (argsText distinct fs).parens).pieces style ++ ps =
        spelt name.capitals ++
          .char '(' :: ((argsText distinct fs).pieces style ++ .char ')' :: ps) := by
      simp
    rw [pieces, run_capitals, hcs]
  -- a word that decides how to read on has a blank behind it
  have apart : ∀ w ps,
      afterWord w ((name.capitals ++ (argsText distinct fs).parens).pieces style ++ ps) = none :=
    fun w ps => afterWord_of_head (by rw [taken]; nofun)
  refine ⟨fun ps _ => ?_, fun ps _ => apart _ ps, fun ps _ => ⟨apart _ ps, ?_⟩⟩
  · have text : String.ofList (c :: cs) = name.capitals := by rw [← hcs, String.ofList_toList]
    have word := afterWord_argsText distinct hfs ps
    refine readsAs_of (readItems_join hfs ps) fun n items => ?_
    rw [readOperand, taken]
    simp only [text, FunctionName.ofText?_capitals, word, Option.bind_eq_bind, Option.bind_some]
    cases distinct with
    | false =>
      simp only [argsText, Bool.false_eq_true, if_false, Option.getD_none, items]
      rfl
    | true =>
      simp only [if_true, Option.getD_some, items]
      rfl
  · intro hhead
    have none := run_of_head (p := isPathChar) (by rw [hhead]; rintro _ ⟨⟩; decide)
    cases (taken ps).symm.trans none

end SqlScribe
