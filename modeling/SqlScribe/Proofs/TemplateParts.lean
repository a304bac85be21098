import Mathlib.Data.List.TakeWhile
import SqlScribe.Template

/-!
# The parts of a template

A template is replaced in one pass, character by character. This module says without any pass what
comes of it. The marks of a text are the parts of it that have the form of a mark, and what lies
between them is plain text: `Splits` lists the parts of a text, and `WithAlias` puts an alias
between the pieces that the marks for it leave.

A mark opens with a brace and holds no other (`Braced`), so two marks never overlap: one that begins
inside a plain piece does not reach into what follows (`Braced.within`). Therefore it does not
matter from which end a text is read, and there is only one way to take it apart.
-/

namespace SqlScribe.Template

/-! ## Words that do not overlap -/

/-- Whether a word opens with a brace and holds no other. -/
def Braced (word : List Char) : Prop := ∃ inside, word = '\x7b' :: inside ∧ '\x7b' ∉ inside

/-- Whether nothing follows, or something that opens with a brace. -/
def BracedNext (rest : List Char) : Prop := ∀ c, rest.head? = some c → c = '\x7b'

section

variable {word new cs rest : List Char}

theorem Braced.ne_nil (hw : Braced word) : word ≠ [] := by
  obtain ⟨inside, rfl, -⟩ := hw
  exact List.cons_ne_nil _ _

theorem bracedNext_nil : BracedNext [] := nofun

theorem Braced.next (hw : Braced word) (rest : List Char) : BracedNext (word ++ rest) := by
  obtain ⟨inside, rfl, -⟩ := hw
  rintro _ ⟨⟩
  rfl

/-- A word that begins inside a piece ends inside it. -/
theorem Braced.within (hw : Braced word) (hcs : cs ≠ []) (hrest : BracedNext rest)
    (h : word <+: cs ++ rest) : word <+: cs := by
  obtain ⟨inside, rfl, hinside⟩ := hw
  rcases List.prefix_or_prefix_of_prefix h (List.prefix_append cs rest) with within | ⟨tail, htail⟩
  · exact within
  cases tail with
  | nil =>
    rw [List.append_nil] at htail
    exact htail ▸ List.prefix_refl cs
  | cons c tail =>
    -- otherwise its end lies in what follows, which begins with a second brace
    exfalso
    rw [← htail, List.prefix_append_right_inj] at h
    obtain rfl : c = '\x7b' := by
      obtain ⟨after, rfl⟩ := h
      exact hrest c rfl
    cases cs with
    | nil => exact hcs rfl
    | cons first cs =>
      obtain ⟨-, rfl⟩ := List.cons.inj htail
      exact hinside (List.mem_append_right _ List.mem_cons_self)

/-! ## Replacing a word -/

theorem replaceBehind_eq_drop (word new : List Char) (n : Nat) (cs : List Char) :
    replaceBehind word new n cs = replaceBehind word new 0 (cs.drop n) := by
  induction cs generalizing n with
  | nil => cases n <;> rfl
  | cons c rest ih =>
    cases n with
    | zero => rfl
    | succ n => exact ih n

theorem replace_word (hw : word ≠ []) (rest : List Char) :
    replaceBehind word new 0 (word ++ rest) = new ++ replaceBehind word new 0 rest := by
  obtain ⟨c, inside, rfl⟩ := List.exists_cons_of_ne_nil hw
  have here : (c :: inside).isPrefixOf (c :: (inside ++ rest)) = true :=
    List.isPrefixOf_iff_prefix.mpr (List.prefix_append (c :: inside) rest)
  rw [List.cons_append, replaceBehind, if_pos here, List.length_cons, Nat.add_sub_cancel,
    replaceBehind_eq_drop, List.drop_left]

/-- A piece without the word is left as it is. -/
theorem replace_piece (hw : Braced word) (hrest : BracedNext rest) (h : ¬word <:+: cs) :
    replaceBehind word new 0 (cs ++ rest) = cs ++ replaceBehind word new 0 rest := by
  induction cs with
  | nil => rfl
  | cons c cs ih =>
    rw [List.infix_cons_iff, not_or] at h
    have here : ¬word.isPrefixOf (c :: (cs ++ rest)) = true := fun hp =>
      h.1 (hw.within (List.cons_ne_nil c cs) hrest (List.isPrefixOf_iff_prefix.mp hp))
    rw [List.cons_append, replaceBehind, if_neg here, ih h.2, List.cons_append]

theorem prefix_intercalate (word first : List Char) (pieces : List (List Char)) :
    first <+: word.intercalate (first :: pieces) := by
  cases pieces with
  | nil => exact List.intercalate_singleton ▸ List.prefix_refl first
  | cons next pieces =>
    rw [List.intercalate_cons_cons, List.append_assoc]
    exact List.prefix_append _ _

theorem replace_intercalate (hw : Braced word) {pieces : List (List Char)}
    (h : ∀ piece ∈ pieces, ¬word <:+: piece) :
    replaceBehind word new 0 (word.intercalate pieces) = new.intercalate pieces := by
  induction pieces with
  | nil => rfl
  | cons piece rest ih =>
    rw [List.forall_mem_cons] at h
    cases rest with
    | nil =>
      rw [List.intercalate_singleton, List.intercalate_singleton, ← List.append_nil piece,
        replace_piece hw bracedNext_nil h.1]
      rfl
    | cons next rest =>
      rw [List.intercalate_cons_cons, List.append_assoc, replace_piece hw (hw.next _) h.1,
        replace_word hw.ne_nil, ih h.2, List.intercalate_cons_cons, List.append_assoc]

/-- Every text consists of pieces without a word, with the word between them. -/
theorem exists_pieces (hw : word ≠ []) (cs : List Char) : ∃ first pieces,
    (∀ piece ∈ first :: pieces, ¬word <:+: piece) ∧ word.intercalate (first :: pieces) = cs := by
  have empty : ¬word <:+: [] := fun h => hw (List.infix_nil.mp h)
  -- on the length, as a word takes several characters at once
  induction hn : cs.length using Nat.strongRecOn generalizing cs with
  | ind n ih =>
  subst hn
  cases cs with
  | nil =>
    exact ⟨[], [], List.forall_mem_singleton.mpr empty, List.intercalate_singleton⟩
  | cons c cs =>
    by_cases here : word <+: c :: cs
    -- the first piece is empty if the word is here, and else one character longer
    · obtain ⟨rest, hrest⟩ := here
      have shorter : rest.length < (c :: cs).length := by
        have := List.length_pos_iff.mpr hw
        rw [← hrest, List.length_append]
        omega
      obtain ⟨first, pieces, hpieces, rfl⟩ := ih _ shorter rest rfl
      refine ⟨[], first :: pieces, List.forall_mem_cons.mpr ⟨empty, hpieces⟩, ?_⟩
      rw [List.intercalate_cons_cons, List.nil_append, hrest]
    · obtain ⟨first, pieces, hpieces, rfl⟩ := ih _ (Nat.lt_succ_self _) cs rfl
      rw [List.forall_mem_cons] at hpieces
      refine ⟨c :: first, pieces, List.forall_mem_cons.mpr ⟨fun h => ?_, hpieces.2⟩,
        List.intercalate_cons_cons_left⟩
      rcases List.infix_cons_iff.mp h with h | h
      · exact here (h.trans ((List.prefix_cons_inj c).mpr (prefix_intercalate word first pieces)))
      · exact hpieces.1 h

end

/-! ## The alias -/

/-- What a text is with an alias in place of the marks for it; an empty alias is none. -/
def WithAlias (aliasName : Option String) (sql : String) (t : List Char) : Prop :=
  match aliasName with
  | none | some "" => t = sql.toList
  | some a => ∃ pieces, (∀ piece ∈ pieces, ¬aliasMark <:+: piece) ∧
      aliasMark.intercalate pieces = sql.toList ∧ t = a.toList.intercalate pieces

theorem braced_aliasMark : Braced aliasMark := ⟨_, rfl, by decide⟩

theorem withAlias_some {a : String} (h : a ≠ "") (sql : String) :
    withAlias (some a) sql = replaceBehind aliasMark a.toList 0 sql.toList := by
  unfold withAlias
  split
  next hnone => cases hnone
  next hempty => exact absurd (Option.some.inj hempty) h
  next hsome => rw [Option.some.inj hsome]

theorem withAlias_iff {aliasName : Option String} {sql : String} {t : List Char} :
    WithAlias aliasName sql t ↔ t = withAlias aliasName sql := by
  unfold WithAlias
  split
  · exact Iff.rfl
  · exact Iff.rfl
  next a ha =>
    rw [withAlias_some ha]
    constructor
    · rintro ⟨pieces, hpieces, hsql, rfl⟩
      rw [← hsql, replace_intercalate braced_aliasMark hpieces]
    · rintro rfl
      obtain ⟨first, pieces, hpieces, hsql⟩ := exists_pieces braced_aliasMark.ne_nil sql.toList
      refine ⟨first :: pieces, hpieces, hsql, ?_⟩
      rw [← hsql, replace_intercalate braced_aliasMark hpieces]

/-! ## Marks -/

/-- Whether a text can be the name of a mark. -/
def IsName (name : List Char) : Prop := name ≠ [] ∧ ∀ c ∈ name, isNameChar c = true

theorem IsName.braced {name : List Char} (h : IsName name) : Braced (mark name) := by
  refine ⟨_, rfl, ?_⟩
  have brace : isNameChar '\x7b' = false := by decide
  have inName : '\x7b' ∉ name := fun hc => by simp [h.2 _ hc] at brace
  simp [inName]

theorem mark?_eq_some_iff {cs name : List Char} :
    mark? cs = some name ↔ IsName name ∧ mark name <+: cs := by
  unfold mark?
  constructor
  · intro h
    dsimp only at h
    split at h
    next here =>
      cases h
      rw [Bool.and_eq_true, List.isPrefixOf_iff_prefix] at here
      exact ⟨⟨by simpa using here.1, fun c hc => List.mem_takeWhile_imp hc⟩, here.2⟩
    next => cases h
  · rintro ⟨⟨hne, hname⟩, rest, rfl⟩
    have closing : isNameChar '\x7d' = false := by decide
    -- the characters of a name end at the closing brace
    have found : ((mark name ++ rest).drop opening.length).takeWhile isNameChar = name := by
      rw [mark, List.append_assoc, List.append_assoc, List.drop_left,
        List.takeWhile_append_of_pos hname, List.cons_append,
        List.takeWhile_cons_of_neg (Bool.eq_false_iff.mp closing), List.append_nil]
    have here : (mark name).isPrefixOf (mark name ++ rest) = true :=
      List.isPrefixOf_iff_prefix.mpr (List.prefix_append _ _)
    dsimp only
    rw [found, if_pos]
    rw [here, Bool.and_true]
    simpa using hne

theorem mark?_eq_none_iff {cs : List Char} :
    mark? cs = none ↔ ∀ name, IsName name → ¬mark name <+: cs := by
  rw [Option.eq_none_iff_forall_not_mem]
  refine forall_congr' fun name => ?_
  rw [Option.mem_def, mark?_eq_some_iff, not_and]

/-! ## Parts -/

/-- Whether a text holds no mark. -/
def Unmarked (cs : List Char) : Prop := ∀ name, IsName name → ¬mark name <:+: cs

/-- Whether a text has certain parts: marks, and between them pieces of plain text that hold no mark
and are as long as they can be. -/
inductive Splits : List Char → List Part → Prop
  | nil : Splits [] []
  | mark {name t ps} : IsName name → Splits t ps → Splits (mark name ++ t) (.mark name :: ps)
  | text {cs t ps} : cs ≠ [] → Unmarked cs → (∀ cs', ps.head? ≠ some (.text cs')) →
      Splits t ps → Splits (cs ++ t) (.text cs :: ps)

/-- The mark that a text begins with is its first part. -/
theorem parts_mark {name : List Char} (h : IsName name) (rest : List Char) :
    parts (mark name ++ rest) = .mark name :: parts rest := by
  have here : mark? (mark name ++ rest) = some name :=
    mark?_eq_some_iff.mpr ⟨h, List.prefix_append _ _⟩
  rw [mark, opening, List.append_assoc, List.append_assoc, List.cons_append] at here ⊢
  rw [parts, partsBehind, here]
  dsimp only
  rw [partsBehind_eq_drop]
  simp [mark, opening]

/-- A character that begins no mark is plain text. -/
theorem parts_cons {c : Char} {rest : List Char} (h : mark? (c :: rest) = none) :
    parts (c :: rest) = consChar c (parts rest) := by
  rw [parts, partsBehind, h]
  rfl

theorem Unmarked.of_cons {c : Char} {cs : List Char} (h : Unmarked (c :: cs)) : Unmarked cs :=
  fun name hname hin => h name hname (List.infix_cons_iff.mpr (.inr hin))

theorem unmarked_one (c : Char) : Unmarked [c] := by
  intro name _ hin
  have := hin.length_le
  simp [mark, opening] at this

theorem Splits.bracedNext {t : List Char} {ps : List Part} (h : Splits t ps)
    (hnext : ∀ cs, ps.head? ≠ some (.text cs)) : BracedNext t := by
  cases h with
  | nil => exact bracedNext_nil
  | mark hname _ => exact hname.braced.next _
  | text => exact absurd rfl (hnext _)

/-- A piece of plain text is found, if a mark or nothing follows. -/
theorem parts_piece {cs rest : List Char} (hcs : cs ≠ []) (hplain : Unmarked cs)
    (hrest : BracedNext rest) (hnext : ∀ cs', (parts rest).head? ≠ some (.text cs')) :
    parts (cs ++ rest) = .text cs :: parts rest := by
  induction cs with
  | nil => exact absurd rfl hcs
  | cons c cs ih =>
    -- a mark that begins here would end in the piece
    have here : mark? (c :: (cs ++ rest)) = none := mark?_eq_none_iff.mpr fun name hname hin =>
      hplain name hname (hname.braced.within hcs hrest hin).isInfix
    rw [List.cons_append, parts_cons here]
    cases cs with
    | nil =>
      rw [List.nil_append]
      unfold consChar
      split
      next cs' after hparts => exact absurd (by rw [hparts]; rfl) (hnext cs')
      next => rfl
    | cons c' cs => rw [ih (List.cons_ne_nil _ _) hplain.of_cons, consChar]

theorem Splits.parts_eq {t : List Char} {ps : List Part} (h : Splits t ps) : parts t = ps := by
  induction h with
  | nil => rfl
  | mark hname _ ih => rw [parts_mark hname, ih]
  | text hcs hplain hnext h ih =>
    rw [parts_piece hcs hplain (h.bracedNext hnext) (by rwa [ih]), ih]

/-- A character in front of a text belongs to a piece of plain text, if no mark begins there. -/
theorem Splits.consChar {c : Char} {t : List Char} {ps : List Part} (h : Splits t ps)
    (here : mark? (c :: t) = none) : Splits (c :: t) (consChar c ps) := by
  cases h with
  | nil => exact .text (List.cons_ne_nil _ _) (unmarked_one c) nofun .nil
  | mark hname h => exact .text (List.cons_ne_nil c []) (unmarked_one c) nofun (.mark hname h)
  | @text cs t ps hcs hplain hnext h =>
    refine .text (List.cons_ne_nil c cs) (fun name hname hin => ?_) hnext h
    rcases List.infix_cons_iff.mp hin with hin | hin
    · exact mark?_eq_none_iff.mp here name hname (hin.trans (List.prefix_append (c :: cs) t))
    · exact hplain name hname hin

theorem splits_parts (t : List Char) : Splits t (parts t) := by
  -- on the length, as a mark takes several characters at once
  induction hn : t.length using Nat.strongRecOn generalizing t with
  | ind n ih =>
  subst hn
  cases t with
  | nil => exact .nil
  | cons c t =>
    cases here : mark? (c :: t) with
    | none =>
      -- no mark here, so the character joins the text behind it or is a text of its own
      rw [parts_cons here]
      exact (ih _ (Nat.lt_succ_self _) t rfl).consChar here
    | some name =>
      obtain ⟨hname, rest, hrest⟩ := mark?_eq_some_iff.mp here
      have shorter : rest.length < (c :: t).length := by
        have := List.length_pos_iff.mpr hname.braced.ne_nil
        rw [← hrest, List.length_append]
        omega
      rw [← hrest, parts_mark hname]
      exact .mark hname (ih _ shorter rest rfl)

/-- **A text has certain parts exactly if one pass from the left finds them.** -/
theorem splits_iff {t : List Char} {ps : List Part} : Splits t ps ↔ ps = parts t :=
  ⟨fun h => h.parts_eq.symm, fun h => h ▸ splits_parts t⟩

end SqlScribe.Template
