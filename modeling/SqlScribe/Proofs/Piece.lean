import SqlScribe.Proofs.Substitution

/-!
# Texts with their values

A text and the values that it binds are together a row of pieces: characters, and the values where
their places stand. In this form a fragment is the row of its parts, and no number has to be carried
along. Texts with the same values have the same pieces (`Fragment.pieces_eq`), so whatever can be
read from the pieces can be told from a text and its values.

The readers here take what stands first: the characters of one kind, a fixed text, or a name with or
without quotes.
-/

namespace SqlScribe

open Fragment (Fits)

/-- A piece of a text: a character, or the value whose place stands there. -/
inductive Piece where
  | char (c : Char)
  | value (v : Value)

/-- The pieces of characters. -/
abbrev charPieces (cs : List Char) : List Piece := cs.map .char

/-- The pieces of a fixed text. -/
def spelt (s : String) : List Piece := charPieces s.toList

/-- The piece that a token stands for. -/
def Token.piece (values : List Value) : Token → Piece
  | .char c => .char c
  | .place k => .value (values.getD (k - 1) .null)

namespace Fragment

/-- The pieces of a fragment. -/
def pieces (style : Style) : Fragment → List Piece
  | empty => []
  | text s rest => spelt s ++ rest.pieces style
  | name a rest => spelt (style.identifier a) ++ rest.pieces style
  | slot v rest => .value v :: rest.pieces style
  | crossed first second rest => first.pieces style ++ second.pieces style ++ rest.pieces style

variable {style : Style}

@[simp] theorem pieces_append (f g : Fragment) :
    (f ++ g).pieces style = f.pieces style ++ g.pieces style := by
  induction f with
  | empty => rfl
  | text s rest ih | name a rest ih | slot v rest ih => simp [pieces, ih]
  | crossed a b rest _ _ ih => simp [pieces, ih]

@[simp] theorem pieces_ofText (s : String) : (ofText s).pieces style = spelt s :=
  List.append_nil _

@[simp] theorem pieces_ofName (a : String) :
    (ofName a).pieces style = spelt (style.identifier a) :=
  List.append_nil _

@[simp] theorem pieces_bound (v : Value) : (bound v).pieces style = [.value v] := rfl

@[simp] theorem pieces_parens (f : Fragment) :
    f.parens.pieces style = .char '(' :: (f.pieces style ++ [.char ')']) := by
  simp [parens, spelt]

/-- Fragments with a text between them: the first, and each other behind the text. -/
theorem pieces_join (separator : String) (f : Fragment) (fs : List Fragment) :
    (join separator (f :: fs)).pieces style =
      f.pieces style ++ fs.flatMap fun g => spelt separator ++ g.pieces style := by
  induction fs generalizing f with
  | nil => simp [join]
  | cons g fs ih =>
    have cons : join separator (f :: g :: fs) = f ++ separator ++ join separator (g :: fs) := rfl
    rw [cons, pieces_append, pieces_append, ih]
    simp

/-- The tokens of a fragment with the values in their places are its pieces. -/
theorem map_tokens (style : Style) (f : Fragment) (before after : List Value) :
    (f.tokens style before.length).map (Token.piece (before ++ f.values ++ after)) =
      f.pieces style := by
  have chars : ∀ (vs : List Value) (cs : List Char),
      (cs.map Token.char).map (Token.piece vs) = charPieces cs := fun vs cs => by
    rw [List.map_map]
    rfl
  -- on the fragment, with the values bound before and behind it
  induction f generalizing before after with
  | empty => rfl
  | text s rest ih | name a rest ih =>
    rw [tokens, List.map_append, chars, pieces]
    exact congrArg _ (ih before after)
  | slot v rest ih =>
    have behind := ih (before ++ [v]) after
    rw [List.length_append, List.length_singleton, List.append_assoc, List.append_assoc,
      List.singleton_append, ← List.cons_append, ← List.append_assoc] at behind
    have here : Token.piece (before ++ (slot v rest).values ++ after) (.place (before.length + 1)) =
        .value v := by
      simp [Token.piece, values]
    rw [tokens, List.map_cons, pieces, here]
    exact congrArg _ behind
  -- the first part is written first, but its values come second
  | crossed a b rest iha ihb ih =>
    have first := iha (before ++ b.values) (rest.values ++ after)
    have second := ihb before (a.values ++ rest.values ++ after)
    have behind := ih (before ++ (b.values ++ a.values)) after
    rw [List.length_append, ← size_eq_length] at first
    rw [List.length_append, List.length_append, ← size_eq_length, ← size_eq_length] at behind
    simp only [List.append_assoc] at first second behind
    rw [tokens, List.map_append, List.map_append, pieces]
    simp only [values, List.append_assoc]
    rw [first, second, behind]

/-- **Texts with the same values have the same pieces.** -/
theorem pieces_eq {E E' f g : Fragment} (hf : Fits True style E f) (hg : Fits True style E' g)
    (htext : f.spell style = g.spell style) (hvalues : f.values = g.values) :
    f.pieces style = g.pieces style := by
  have tokens : f.tokens style 0 = g.tokens style 0 := by
    rw [← tokensOf_spell hf, ← tokensOf_spell hg, htext]
  have left := map_tokens style f [] []
  have right := map_tokens style g [] []
  simp only [List.nil_append, List.append_nil, List.length_nil] at left right
  rw [← left, ← right, tokens, hvalues]

end Fragment

/-! ## Characters of one kind -/

/-- The characters with a property that stand first, and what follows them. -/
def run (p : Char → Bool) : List Piece → List Char × List Piece
  | .char c :: ps => if p c then (c :: (run p ps).1, (run p ps).2) else ([], .char c :: ps)
  | ps => ([], ps)

variable {p : Char → Bool} {cs ds : List Char} {ps : List Piece}

theorem run_append (h : ∀ c ∈ cs, p c = true) (ps : List Piece) :
    run p (charPieces cs ++ ps) = (cs ++ (run p ps).1, (run p ps).2) := by
  induction cs with
  | nil => rfl
  | cons c cs ih =>
    obtain ⟨hc, hcs⟩ := List.forall_mem_cons.mp h
    show run p (.char c :: (charPieces cs ++ ps)) = _
    rw [run, if_pos hc, ih hcs]
    rfl

theorem run_of_head (h : ∀ c, ps.head? = some (.char c) → p c = false) : run p ps = ([], ps) := by
  cases ps with
  | nil => rfl
  | cons piece ps =>
    cases piece with
    | char c => rw [run, h c rfl]; rfl
    | value v => rfl

/-! ## Fixed texts -/

/-- What follows a fixed text, if that stands first. -/
def strip : List Char → List Piece → Option (List Piece)
  | [], ps => some ps
  | c :: cs, .char c' :: ps => if c = c' then strip cs ps else none
  | _ :: _, _ => none

theorem strip_append (cs : List Char) (ps : List Piece) :
    strip cs (charPieces cs ++ ps) = some ps := by
  induction cs with
  | nil => rfl
  | cons c cs ih => simpa [strip] using ih

/-- Of two texts neither of which begins with the other, only one can stand first. -/
theorem strip_eq_none (h : ¬cs <+: ds) (h' : ¬ds <+: cs) :
    strip cs (charPieces ds ++ ps) = none := by
  -- on both texts, up to the first character in which they differ
  induction cs generalizing ds with
  | nil => exact absurd List.nil_prefix h
  | cons c cs ih =>
    cases ds with
    | nil => exact absurd List.nil_prefix h'
    | cons d ds =>
      show strip (c :: cs) (.char d :: (charPieces ds ++ ps)) = none
      rw [strip]
      split
      next hcd =>
        subst hcd
        simp only [List.cons_prefix_cons, true_and] at h h'
        exact ih h h'
      · rfl

/-- The first of some things whose text stands first, and what follows it. -/
def readFirst {α : Type} (text : α → String) (as : List α) (ps : List Piece) :
    Option (α × List Piece) :=
  as.findSome? fun a => (strip (text a).toList ps).map fun rest => (a, rest)

/-- If no text begins with another, the right one is found. -/
theorem readFirst_spelt {α : Type} {text : α → String} {as : List α} {a : α} (ha : a ∈ as)
    (hapart : ∀ b ∈ as, (text b).toList <+: (text a).toList ∨ (text a).toList <+: (text b).toList →
      b = a) : readFirst text as (spelt (text a) ++ ps) = some (a, ps) := by
  unfold readFirst
  induction as with
  | nil => cases ha
  | cons b rest ih =>
    obtain ⟨hb, hrest⟩ := List.forall_mem_cons.mp hapart
    rw [List.findSome?_cons]
    -- none before the right one is the beginning of it or begins with it
    by_cases hab : b = a
    · subst hab
      rw [spelt, strip_append]
      rfl
    · have hne : ¬((text b).toList <+: (text a).toList ∨ (text a).toList <+: (text b).toList) :=
        fun h => hab (hb h)
      rw [not_or] at hne
      rw [spelt, strip_eq_none hne.1 hne.2]
      exact ih ((List.mem_cons.mp ha).resolve_left (Ne.symm hab)) hrest

theorem readFirst_eq_none {α : Type} {text : α → String} {as : List α} (ds : List Char)
    (h : ∀ b ∈ as, ¬(text b).toList <+: ds ∧ ¬ds <+: (text b).toList) :
    readFirst text as (charPieces ds ++ ps) = none :=
  List.findSome?_eq_none_iff.mpr fun b hb => by rw [strip_eq_none (h b hb).1 (h b hb).2]; rfl

/-! ## Names -/

/-- The characters of a name without quotes. -/
def isNameChar (c : Char) : Bool := isWordChar c || c = '\n'

/-- The characters up to a closing quote that stands alone, each of two closing quotes as one. -/
def unquote (close : Char) : List Piece → Option (List Char × List Piece)
  | .char c :: .char c' :: ps =>
    if c ≠ close then (unquote close (.char c' :: ps)).map fun r => (c :: r.1, r.2)
    else if c' = close then (unquote close ps).map fun r => (c :: r.1, r.2)
    else some ([], .char c' :: ps)
  | .char c :: ps => if c = close then some ([], ps) else none
  | _ => none

/-- The name that stands first. -/
def readName (d : Dialect) : List Piece → Option (String × List Piece)
  | .char c :: ps =>
    if c = d.openQuote then (unquote d.closeQuote ps).map fun r => (String.ofList r.1, r.2)
    else if isNameChar c then
      let r := run isNameChar (.char c :: ps)
      some (String.ofList r.1, r.2)
    else none
  | _ => none

/-- Whether pieces may follow a name: they do not continue it. -/
def Parts (d : Dialect) (ps : List Piece) : Prop :=
  ∀ c, ps.head? = some (.char c) → isNameChar c = false ∧ c ≠ d.closeQuote

theorem unquote_quoted {close : Char} (h : ps.head? ≠ some (.char close)) (body : List Char) :
    unquote close (charPieces (doubled close body) ++ .char close :: ps) = some (body, ps) := by
  induction body with
  | nil =>
    cases ps with
    | nil => simp [unquote]
    | cons piece ps =>
      cases piece with
      | char c =>
        have hc : c ≠ close := fun hc => h (by rw [hc]; rfl)
        simp [unquote, hc]
      | value v => simp [unquote]
  | cons c body ih =>
    by_cases hc : c = close
    · subst hc
      rw [doubled_cons_self]
      simp [unquote, ih]
    · -- another character follows, if only the closing quote
      obtain ⟨c', qs, hqs⟩ : ∃ c' qs,
          charPieces (doubled close body) ++ .char close :: ps = .char c' :: qs := by
        cases doubled close body with
        | nil => exact ⟨_, _, rfl⟩
        | cons c' cs => exact ⟨_, _, rfl⟩
      rw [hqs] at ih
      rw [doubled_cons_of_ne hc, charPieces, List.map_cons, List.cons_append, hqs, unquote,
        if_pos hc, ih]
      rfl

/-- Every character of a name that is written without quotes may stand in one. -/
theorem isNameChar_of_isPlainWord {s : String} (h : isPlainWord s.toList = true) :
    s.toList ≠ [] ∧ ∀ c ∈ s.toList, isNameChar c = true := by
  unfold isPlainWord at h
  split at h
  · cases h
  next c' rest hcs =>
    rw [Bool.and_eq_true, List.all_eq_true] at h
    refine ⟨fun hnil => ?_, fun c hc => ?_⟩
    · rw [hnil] at hcs
      cases hcs
    · rw [isNameChar, Bool.or_eq_true, decide_eq_true_eq]
      rcases mem_dropFinalBreak hc with hc | rfl
      · rw [hcs, List.mem_cons] at hc
        rcases hc with rfl | hc
        · exact .inl (isWordChar_of_isWordStart h.1)
        · exact .inl (h.2 c hc)
      · exact .inr rfl

theorem isNameChar_openQuote (d : Dialect) : isNameChar d.openQuote = false := by
  cases d <;> decide

/-- A name is quoted, or it is a word that is not reserved. -/
theorem identifier_cases (style : Style) (s : String) :
    style.identifier s = style.dialect.quote s ∨
      style.identifier s = s ∧ isPlainWord s.toList = true ∧
        style.dialect.isReserved (String.ofList (s.toList.map Char.toUpper)) = false := by
  unfold Style.identifier
  split
  · exact .inl rfl
  next h =>
    simp only [Style.quotes, Dialect.isBare, Bool.or_eq_true, Bool.not_eq_true', not_or,
      Bool.not_eq_false, Bool.and_eq_true] at h
    exact .inr ⟨rfl, h.2.1⟩

theorem spelt_quote (d : Dialect) (s : String) :
    spelt (d.quote s) = .char d.openQuote ::
      (charPieces (doubled d.closeQuote s.toList) ++ [.char d.closeQuote]) := by
  simp [spelt, toList_quote]

/-- **A written name is read back.** -/
theorem readName_identifier {style : Style} (h : Parts style.dialect ps) (s : String) :
    readName style.dialect (spelt (style.identifier s) ++ ps) = some (s, ps) := by
  -- a name is written in quotes, or bare as a plain word
  rcases identifier_cases style s with hs | ⟨hs, hword, -⟩
  · have close : ps.head? ≠ some (.char style.dialect.closeQuote) := fun hc => (h _ hc).2 rfl
    have body := unquote_quoted close s.toList
    rw [hs, spelt_quote, List.cons_append, readName, if_pos rfl, List.append_assoc,
      List.singleton_append, body, Option.map_some, String.ofList_toList]
  · obtain ⟨hne, hall⟩ := isNameChar_of_isPlainWord hword
    have taken := run_append hall ps
    rw [run_of_head fun c hc => (h c hc).1, List.append_nil] at taken
    obtain ⟨c, cs, hcs⟩ := List.exists_cons_of_ne_nil hne
    rw [hcs] at hall taken
    obtain ⟨hc, -⟩ := List.forall_mem_cons.mp hall
    have hquote : c ≠ style.dialect.openQuote := fun he => by
      rw [he, isNameChar_openQuote] at hc
      cases hc
    have text : String.ofList (c :: cs) = s := by rw [← hcs, String.ofList_toList]
    rw [hs, spelt, hcs]
    show readName style.dialect (.char c :: (charPieces cs ++ ps)) = _
    rw [readName, if_neg hquote, if_pos hc]
    show some (String.ofList (run isNameChar (charPieces (c :: cs) ++ ps)).1,
      (run isNameChar (charPieces (c :: cs) ++ ps)).2) = _
    rw [taken, text]

end SqlScribe
