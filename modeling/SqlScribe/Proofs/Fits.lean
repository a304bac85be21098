import SqlScribe.Proofs.Outcome
import SqlScribe.Proofs.Reading
import SqlScribe.Proofs.Skeleton

/-!
# Fragments that fit

A fragment fits a skeleton if that is its skeleton and if it is read back in front of whatever does
not continue it. It leads if it is read back in front of anything. So what leads may stand in front
of what fits, and what fits has to be followed by a fixed text.

Raw fragments hold texts of a caller, which may mean anything to the reader. A proof about
statements without them is `strict`; other proofs ask only for the skeleton.
-/

namespace SqlScribe

namespace Fragment

/-- Whether a fragment has a skeleton and, in a strict proof, is read back in front of what `ahead`
allows. -/
structure FitsBefore (strict : Prop) (style : Style) (ahead : List Char → Prop)
    (skeleton f : Fragment) : Prop where
  binds : f.skeleton = skeleton
  reads : strict → f.ReadsBefore style ahead

/-- Whether a fragment has a skeleton and may stand in front of what does not continue it. -/
abbrev Fits (strict : Prop) (style : Style) (skeleton f : Fragment) : Prop :=
  FitsBefore strict style style.dialect.Separates skeleton f

/-- Whether a fragment has a skeleton and may stand in front of anything. -/
abbrev Leads (strict : Prop) (style : Style) (skeleton f : Fragment) : Prop :=
  FitsBefore strict style anything skeleton f

end Fragment

open Fragment (Fits Leads FitsBefore)

section

variable {strict : Prop} {style : Style} {ahead : List Char → Prop} {E E' f g : Fragment}

/-! ## Single pieces -/

theorem fits_empty : FitsBefore strict style ahead .empty .empty := ⟨rfl, fun _ => .empty⟩

/-- A name is read back in front of what does not go on with it. -/
theorem fits_name (a : String) : Fits strict style .empty (.ofName a) := ⟨rfl, fun _ => .name a⟩

/-- So is a place for a value. -/
theorem fits_slot (v : Value) : Fits strict style (.bound v) (.bound v) := ⟨rfl, fun _ => .slot v⟩

/-- A text in which the reader stops at nothing. -/
theorem leads_calm {s : String} (h : s.toList.all style.dialect.isCalm = true) :
    FitsBefore strict style ahead .empty (.ofText s) :=
  ⟨rfl, fun _ => .calmText h⟩

/-- A text of plain characters is such a text in every dialect. -/
theorem leads_text {s : String} (h : isPlainText s = true) :
    FitsBefore strict style ahead .empty (.ofText s) :=
  leads_calm (all_isCalm_of_isPlainText _ h)

/-- A literal of the text is passed over as a whole. -/
theorem fits_literal {s : String} (body : List Char) (hs : s.toList = '\'' :: (body ++ ['\'']))
    (h : '\'' ∉ body) : Fits strict style .empty (.ofText s) :=
  ⟨rfl, fun _ => .literalText hs h⟩

namespace Fragment.FitsBefore

/-! ## Pieces side by side -/

theorem of_eq (hf : FitsBefore strict style ahead E f) (h : E = E') :
    FitsBefore strict style ahead E' f := h ▸ hf

/-- What leads may stand in front of what fits. -/
theorem append (hf : Leads strict style E f) (hg : FitsBefore strict style ahead E' g) :
    FitsBefore strict style ahead (E ++ E') (f ++ g) :=
  ⟨by rw [skeleton_append, hf.binds, hg.binds], fun hs => (hf.reads hs).append (hg.reads hs)⟩

/-- What fits leads if a fixed text follows that is right for the dialect. -/
theorem linkIn {s : String} (hf : Fits strict style E f) (h : style.dialect.isLink s = true) :
    FitsBefore strict style ahead E (f ++ ofText s) :=
  ⟨by rw [skeleton_append, hf.binds]; exact append_empty E, fun hs => (hf.reads hs).link h⟩

/-- What fits leads if a fixed text follows. -/
theorem link {s : String} (hf : Fits strict style E f) (h : isLink s = true) :
    FitsBefore strict style ahead E (f ++ ofText s) :=
  hf.linkIn (Dialect.isLink_of_isLink _ h)

/-- A fixed text behind a fragment changes nothing. -/
theorem text {s : String} (hf : Leads strict style E f) (h : isPlainText s = true) :
    FitsBefore strict style ahead E (f ++ ofText s) :=
  (hf.append (leads_text h)).of_eq (append_empty E)

/-- A fixed text in front. -/
theorem after {s : String} (hf : FitsBefore strict style ahead E f) (h : isPlainText s = true) :
    FitsBefore strict style ahead E (ofText s ++ f) :=
  (append (leads_text h) hf).of_eq (empty_append E)

/-- Values that are bound ahead of their place in the text, which needs numbered places. -/
theorem cross (hd : style.dialect.hasNumbers = true) (hf : Leads strict style E f)
    (hg : FitsBefore strict style ahead E' g) :
    FitsBefore strict style ahead (Fragment.cross E E') (Fragment.cross f g) :=
  ⟨by simp [Fragment.cross, skeleton, hf.binds, hg.binds],
    fun hs => (hf.reads hs).cross hd (hg.reads hs)⟩

end Fragment.FitsBefore

/-! ## Combinations -/

theorem Fragment.FitsBefore.parens (hf : Fits strict style E f) :
    FitsBefore strict style ahead E f.parens :=
  (hf.after (by decide)).link (by decide)

/-- A list with separators between its parts. -/
theorem fits_join {separator : String} (hs : isLink separator = true) {Es fs : List Fragment}
    (h : List.Forall₂ (Fits strict style) Es fs) :
    Fits strict style (.concat Es) (.join separator fs) := by
  -- on the parts: a separator is a fixed text, so what stands in front of it leads
  induction h with
  | nil => exact fits_empty
  | cons hf hfs ih =>
    -- behind the last piece there is no separator
    cases hfs with
    | nil => exact hf.of_eq (Fragment.concat_one _).symm
    | cons _ _ => exact (hf.link hs).append ih

/-- A list in parentheses. -/
theorem fits_tuple {Es fs : List Fragment} (h : List.Forall₂ (Fits strict style) Es fs) :
    FitsBefore strict style ahead (.concat Es) (.tuple fs) :=
  (fits_join (by decide) h).parens

/-- A call of a function. -/
theorem fits_callText {name : String} (hn : isPlainText name = true) {Es fs : List Fragment}
    (h : List.Forall₂ (Fits strict style) Es fs) :
    FitsBefore strict style ahead (.concat Es) (callText name fs) :=
  (fits_tuple h).after hn

/-- A call with one argument. -/
theorem fits_call {name : String} (hn : isPlainText name = true) (hf : Fits strict style E f) :
    FitsBefore strict style ahead E (callText name [f]) :=
  (fits_callText hn (.cons hf .nil)).of_eq (Fragment.concat_one _)

/-- A cast to a type. -/
theorem fits_castTo {type : String} (ht : isPlainText type = true) (hf : Fits strict style E f) :
    FitsBefore strict style ahead E (Dialect.castTo f type) :=
  (((hf.after (by decide)).link (by decide)).text ht).text (by decide)

/-- A negation holds its operand together. -/
theorem fits_negatedIf (negated : Bool) (hf : Fits strict style E f) :
    Fits strict style E (negatedIf negated f) := by
  cases negated with
  | false => exact hf
  | true => exact FitsBefore.after hf.parens (by decide)

/-- The words for a negated test are as plain as those for the test. -/
theorem isPlainText_keyword (negated : Bool) {word : String} (h : isPlainText word = true) :
    isPlainText (keyword negated word) = true := by
  cases negated with
  | false => exact h
  | true => exact isPlainText_append (by decide) h

/-- A text that is bound. -/
theorem fits_boundText (s : String) : Fits strict style (boundText s) (boundText s) := fits_slot _

/-- Texts that are bound one by one. -/
theorem fits_boundTexts (names : List String) :
    List.Forall₂ (Fits strict style) (names.map boundText) (names.map boundText) :=
  List.forall₂_same.mpr fun f hf => by
    obtain ⟨s, _, rfl⟩ := List.mem_map.mp hf
    exact fits_boundText s

/-! ## Lists of clauses -/

/-- Whether clauses fit a skeleton together. -/
def ClausesFit (strict : Prop) (style : Style) (E : Fragment) (fs : List Fragment) : Prop :=
  ∃ Es, Fragment.concat Es = E ∧ List.Forall₂ (Fits strict style) Es fs

namespace ClausesFit

variable {fs gs : List Fragment}

theorem nil : ClausesFit strict style .empty [] := ⟨[], rfl, .nil⟩

/-- A single clause. -/
theorem one (hf : Fits strict style E f) : ClausesFit strict style E [f] :=
  ⟨[E], Fragment.concat_one E, .cons hf .nil⟩

/-- Clauses of two lists, one after the other. -/
theorem append (hf : ClausesFit strict style E fs) (hg : ClausesFit strict style E' gs) :
    ClausesFit strict style (E ++ E') (fs ++ gs) := by
  obtain ⟨Es, rfl, hfs⟩ := hf
  obtain ⟨Es', rfl, hgs⟩ := hg
  exact ⟨Es ++ Es', Fragment.concat_append Es Es', List.rel_append hfs hgs⟩

/-- A clause in front of a list. -/
theorem cons (hf : Fits strict style E f) (hg : ClausesFit strict style E' gs) :
    ClausesFit strict style (E ++ E') (f :: gs) :=
  (one hf).append hg

theorem of_eq (h : ClausesFit strict style E fs) (he : E = E') : ClausesFit strict style E' fs :=
  he ▸ h

/-- Clauses with a separator between them. -/
theorem join {separator : String} (hs : isLink separator = true)
    (h : ClausesFit strict style E fs) : Fits strict style E (.join separator fs) := by
  obtain ⟨Es, rfl, hfs⟩ := h
  exact fits_join hs hfs

/-- A clause that lists its parts behind a word, and is left out if there are none. -/
theorem listClause {word : String} (hw : isPlainText word = true) {Es : List Fragment}
    (h : List.Forall₂ (Fits strict style) Es fs) :
    ClausesFit strict style (.concat Es) (listClause word fs) := by
  cases h with
  | nil => exact nil
  | cons hf hfs =>
    refine one ?_
    exact (FitsBefore.append (FitsBefore.text (leads_text hw) (by decide))
      (fits_join (by decide) (.cons hf hfs))).of_eq (Fragment.empty_append _)

end ClausesFit

end

end SqlScribe
