import SqlScribe.Proofs.Paired
import SqlScribe.Proofs.Typed
import SqlScribe.Proofs.Walk

/-!
# Comparing two runs

Three questions about the writer are answered by one walk over two runs of it. Of a single run it
asks which errors may come up, so the run is compared with itself. Of PostgreSQL and SQLite it asks
whether they write the same. Of PostgreSQL and any other dialect it asks whether both succeed or
both fail, and with which errors.

A `Pairing` says which question is asked. `Meets` is what the two outcomes of a step have to do
with each other, and `Twin` is what two expressions have to have in common so that everything around
them may treat them alike; the second may be the first with references replaced in another way. This
module has the rules for names, operands and lists. The walk itself follows in another.
-/

namespace SqlScribe

/-- Two runs that are compared, and what is asked of them. -/
inductive Pairing where
  /-- A dialect with itself: no fault of building comes up. -/
  | alone (d : Dialect)
  /-- PostgreSQL with SQLite: both write the same. -/
  | shared
  /-- PostgreSQL with any dialect: both succeed or both fail, and no feature is lacking. -/
  | portable (d : Dialect)

namespace Pairing

/-- The dialect of the first run. -/
def left : Pairing → Dialect
  | .alone d => d
  | .shared | .portable _ => .postgres

/-- The dialect of the second run. -/
def right : Pairing → Dialect
  | .alone d | .portable d => d
  | .shared => .sqlite

/-- Whether both runs have to write the same. -/
def Exact : Pairing → Prop
  | .shared => True
  | _ => False

/-- Whether names and switches are known to be what they are declared to be. -/
def Typed : Pairing → Prop
  | .shared => False
  | _ => True

/-- Whether a dialect is compared with itself. -/
abbrev IsAlone (c : Pairing) : Prop := ∃ d, c = .alone d

/-- Whether success alone is compared. -/
abbrev IsPortable (c : Pairing) : Prop := ∃ d, c = .portable d

/-- Whether an error may come up. -/
def Allows : Pairing → RenderError → Prop
  | .alone _, .building _ => False
  | .portable _, .unsupported .. | .portable _, .unordered .. => False
  | _, _ => True

/-- What is asked of every node. -/
def Asks : Pairing → Tree → Prop
  | .alone _, t => t.IsTyped ∧ t.IsFramed
  | .shared, t => t.IsShared
  | .portable _, t => t.IsTyped ∧ t.IsPortable

/-- Whether two results are the same as far as that matters. -/
def Same (c : Pairing) {α : Type} (a b : α) : Prop := c.Exact → a = b

/-- What the outcomes of a step in the two runs have to do with each other. -/
abbrev Meets (c : Pairing) {α : Type} (x y : Rendered α) : Prop := Paired c.Same c.Allows x y

/-- Two results in the pairing that asks for the same text. -/
def Sames (c : Pairing) (fs gs : List Fragment) : Prop :=
  gs.length = fs.length ∧ c.Same fs gs

variable {c : Pairing}

/-- Where all names have to be texts, they are so in each tree that is asked about. -/
theorem Asks.typed {t : Tree} (h : c.Asks t) (hc : c.Typed) : t.IsTyped := by
  cases c with
  | alone d | portable d => exact h.1
  | shared => exact hc.elim

/-- Where both dialects have to write the same, each tree uses only what they share. -/
theorem Asks.shared {t : Tree} (h : c.Asks t) (hc : c.Exact) : t.IsShared := by
  cases c with
  | shared => exact h
  | alone d | portable d => exact hc.elim

/-- A dialect compared with itself takes windows where windows are expected. -/
theorem Asks.framed {t : Tree} (h : c.Asks t) (hc : c.IsAlone) : t.IsFramed := by
  obtain ⟨d, rfl⟩ := hc
  exact h.2

/-- A tree that is asked about in every dialect is portable. -/
theorem Asks.portable {t : Tree} (h : c.Asks t) (hc : c.IsPortable) : t.IsPortable := by
  obtain ⟨d, rfl⟩ := hc
  exact h.2

/-- Nodes about JSON and full-text search are asked for only where a dialect is compared with
itself. -/
theorem Asks.isAlone {e : Expr} (h : c.Asks (.expr e)) (hs : e.isSpecial = true) : c.IsAlone := by
  cases c with
  | alone d => exact ⟨d, rfl⟩
  | portable d => exact absurd (h.2.1.symm.trans hs) Bool.false_ne_true
  | shared =>
    have hshared : e.isSpecial = false := by
      cases e with
      | raw _ _ _ _ | cast _ _ | aggregateText _ | inList _ _ _ => cases hs
      | _ => exact h
    exact absurd (hshared.symm.trans hs) Bool.false_ne_true

/-- Equal results are the same, asked or not. -/
theorem same_refl {α : Type} (a : α) : c.Same a a := fun _ => rfl

/-- What is made alike of same results is the same. -/
theorem Same.congr {α β : Type} {a b : α} (h : c.Same a b) (f : α → β) : c.Same (f a) (f b) :=
  fun hx => congrArg f (h hx)

/-- What is made alike of two pairs of same results is the same. -/
theorem Same.congr₂ {α β γ : Type} {a b : α} {a' b' : β} (h : c.Same a b) (h' : c.Same a' b')
    (f : α → β → γ) : c.Same (f a a') (f b b') :=
  fun hx => congrArg₂ f (h hx) (h' hx)

/-- A layout that PostgreSQL and SQLite share. -/
theorem same_layout {α : Type} {f : Dialect → α} (h : f .postgres = f .sqlite) :
    c.Same (f c.left) (f c.right) := by
  cases c with
  | shared => exact fun _ => h
  | alone d | portable d => exact fun hx => hx.elim

/-- Lists that agree member by member are the same. -/
theorem sames_of_forall₂ {fs gs : List Fragment} (h : List.Forall₂ c.Same fs gs) :
    c.Sames fs gs := by
  refine ⟨h.length_eq.symm, fun hx => ?_⟩
  induction h with
  | nil => rfl
  | cons hab _ ih => rw [hab hx, ih]

/-- A list is the same as itself. -/
theorem sames_refl (fs : List Fragment) : c.Sames fs fs := ⟨rfl, same_refl fs⟩

/-! ## Errors -/

/-- Where types are not known, everything may come up. -/
theorem allows_of_not_typed (h : ¬c.Typed) (e : RenderError) : c.Allows e := by
  cases c with
  | shared => trivial
  | alone d | portable d => exact absurd trivial h

theorem allows_notExpression (d : Dialect) (name : String) : c.Allows (.notExpression d name) := by
  cases c <;> trivial

theorem allows_notQuery (name : String) : c.Allows (.notQuery name) := by
  cases c <;> trivial

theorem allows_notSource (name : String) : c.Allows (.notSource name) := by
  cases c <;> trivial

theorem allows_strayExcluded (column : Data) : c.Allows (.strayExcluded column) := by
  cases c <;> trivial

theorem allows_unboundMark (name template : String) : c.Allows (.unboundMark name template) := by
  cases c <;> trivial

/-- A step that both runs take in the same way goes together with itself, if it does not fail where
types are known. -/
theorem meets_self {α : Type} {x : Rendered α} (h : c.Typed → ∃ a, x = .ok a) : c.Meets x x := by
  by_cases ht : c.Typed
  · obtain ⟨a, rfl⟩ := h ht
    exact paired_ok (same_refl a)
  · exact paired_self same_refl fun e _ => allows_of_not_typed ht e

/-! ## Names -/

/-- A name meets itself, as it is written by both dialects in one way. -/
theorem meets_nameOf {n : Name} (h : c.Typed → n.isText = true) : c.Meets (nameOf n) (nameOf n) :=
  meets_self fun ht => nameOf_isText (h ht)

/-- A qualified name is written if both of its names are texts. -/
theorem nameIn_isText {q n : Name} (hq : q.isText = true) (hn : n.isText = true) :
    ∃ f, nameIn q n = .ok f := by
  obtain ⟨f, hf⟩ := nameOf_isText hq
  obtain ⟨g, hg⟩ := nameOf_isText hn
  exact ⟨_, by rw [nameIn, hf, hg]; rfl⟩

/-- A qualifier that is absent, or a text, is no obstacle. -/
theorem qualified_isName {q n : Name} (hq : q.isName = true) (hn : n.isText = true) :
    ∃ f, qualified q n = .ok f := by
  unfold qualified
  split
  next ht => exact nameIn_isText (Expr.isText_of_isTrue hq ht) hn
  · exact nameOf_isText hn

/-- The star of a table that is absent, or named by a text. -/
theorem starOf_isName {t : Name} (h : t.isName = true) : ∃ f, starOf t = .ok f := by
  unfold starOf
  split
  next ht =>
    obtain ⟨f, hf⟩ := nameOf_isText (Expr.isText_of_isTrue h ht)
    exact ⟨_, by rw [hf]; rfl⟩
  · exact ⟨_, rfl⟩

/-- A table is written if its name is a text and its schema is none or a text. -/
theorem tableName_isText {s n : Name} (hs : s.isName = true) (hn : n.isText = true) :
    ∃ f, tableName s n = .ok f := by
  obtain ⟨f, hf⟩ := nameOf_isText hn
  unfold tableName
  rw [hf]
  by_cases ht : s.isTrue
  · obtain ⟨g, hg⟩ := nameOf_isText (Expr.isText_of_isTrue hs ht)
    exact ⟨_, by simp only [ht, if_true, hg]; rfl⟩
  · exact ⟨_, by simp only [ht]; rfl⟩

/-- Same texts under one alias. -/
theorem meets_aliased {f g : Fragment} (h : c.Same f g) {n : Name}
    (hn : c.Typed → n.isName = true) : c.Meets (aliased f n) (aliased g n) := by
  unfold aliased
  split
  next ht =>
    exact (meets_nameOf fun hc => Expr.isText_of_isTrue (hn hc) ht).bind fun a b hab =>
      paired_ok (h.congr₂ hab fun f a => f ++ " AS " ++ a)
  · exact paired_ok h

/-- A list of names that can all be written can be written as a whole. -/
theorem allOk_isText {g : Name → Rendered Fragment} {ns : List Name}
    (h : ∀ n ∈ ns, ∃ f, g n = .ok f) : ∃ fs, allOk (ns.map g) = .ok fs := by
  induction ns with
  | nil => exact ⟨[], rfl⟩
  | cons n rest ih =>
    obtain ⟨hn, hrest⟩ := List.forall_mem_cons.mp h
    obtain ⟨f, hf⟩ := hn
    obtain ⟨fs, hfs⟩ := ih hrest
    exact ⟨f :: fs, by rw [List.map_cons, allOk, hf, hfs]; rfl⟩

/-- A list of texts is written as names. -/
theorem namesOf_isText {ns : List Name} (h : ∀ n ∈ ns, n.isText = true) :
    ∃ f, namesOf ns = .ok f := by
  obtain ⟨fs, hfs⟩ := allOk_isText fun n hn => nameOf_isText (h n hn)
  exact ⟨_, by rw [namesOf, hfs]; rfl⟩

/-! ## Twins -/

/-- What two expressions have in common as operands and as items of a list. -/
structure Side (c : Pairing) (e e' : Expr) : Prop where
  written : c.Meets (e.render c.left) (e'.render c.right)
  compound : e'.isCompound = e.isCompound
  bare : e'.bare? = e.bare?
  settled : c.Typed → e.bare? = none

/-- What two expressions have in common wherever they may stand. -/
structure Twin (c : Pairing) (e e' : Expr) : Prop extends Side c e e' where
  predicate : c.Meets (predicateOf c.left e (e.render c.left))
    (predicateOf c.right e' (e'.render c.right))
  logical : e'.isLogical = e.isLogical
  window : (c.IsAlone → e.isFrame = true) →
    c.Meets (e.renderWindow c.left) (e'.renderWindow c.right)
  search : e'.isTextSearch = e.isTextSearch
  row : e'.isRow = e.isRow
  parts : List.Forall₂ c.Side e.parts e'.parts

variable {e e' : Expr} {es es' : List Expr} {w w' : Rendered Fragment}
  {ws ws' : List (Rendered Fragment)}

/-- Of twins less is needed where they stand in a list. -/
theorem Twin.sides (h : List.Forall₂ c.Twin es es') : List.Forall₂ c.Side es es' :=
  h.imp fun _ _ h => h.toSide

/-- Lists are written member by member. -/
theorem meets_renderEach (h : List.Forall₂ c.Side es es') :
    List.Forall₂ c.Meets (renderEach c.left es) (renderEach c.right es') := by
  induction h with
  | nil => exact .nil
  | cons he _ ih => exact .cons he.written ih

/-! ## Lists -/

/-- Where the members meet, the lists of their results are the same or fail alike. -/
theorem meets_allOk (h : List.Forall₂ c.Meets ws ws') :
    Paired c.Sames c.Allows (allOk ws) (allOk ws') :=
  (paired_allOk h).mono fun _ _ => sames_of_forall₂

/-- Where types are known, every raw fragment has a text. -/
theorem requireTexts_sides (ht : c.Typed) (h : List.Forall₂ c.Side es es') :
    requireTexts es = .ok () := by
  have hnone : (es.any fun e => e.bare?.isSome) = false := by
    induction h with
    | nil => rfl
    | cons he _ ih =>
      rw [List.any_cons, he.settled ht, ih]
      rfl
  rw [requireTexts, hnone]
  rfl

/-- Texts are missing on both sides or on neither. -/
theorem meets_requireTexts (h : List.Forall₂ c.Side es es') :
    c.Meets (requireTexts es) (requireTexts es') := by
  -- sides agree in being texts, and this is all that the check looks at
  have hany : (es'.any fun e => e.bare?.isSome) = es.any fun e => e.bare?.isSome := by
    induction h with
    | nil => rfl
    | cons he _ ih => rw [List.any_cons, List.any_cons, he.bare, ih]
  have heq : requireTexts es' = requireTexts es := by rw [requireTexts, requireTexts, hany]
  rw [heq]
  exact meets_self fun ht => ⟨(), requireTexts_sides ht h⟩

/-- Texts that are required of both sides. -/
theorem meets_textsOf (hs : List.Forall₂ c.Side es es') (h : List.Forall₂ c.Meets ws ws') :
    Paired c.Sames c.Allows (textsOf es ws) (textsOf es' ws') :=
  (meets_allOk h).bind fun _ _ hfs => (meets_requireTexts hs).bind fun _ _ _ => paired_ok hfs

/-- The texts of two lists of sides. -/
theorem meets_texts (h : List.Forall₂ c.Side es es') :
    Paired c.Sames c.Allows (textsOf es (renderEach c.left es))
      (textsOf es' (renderEach c.right es')) :=
  meets_textsOf h (meets_renderEach h)

/-! ## Operands and conditions -/

/-- Parentheses around both. -/
theorem meets_parens (h : c.Meets w w') :
    c.Meets (w.map Fragment.parens) (w'.map Fragment.parens) :=
  h.map fun _ _ hfg => hfg.congr _

/-- Operands are held together on both sides or on neither. -/
theorem meets_operandOf (hc : e'.isCompound = e.isCompound) (h : c.Meets w w') :
    c.Meets (operandOf e w) (operandOf e' w') := by
  unfold operandOf
  rw [hc]
  split
  · exact meets_parens h
  · exact h

/-- The two sides as operands. -/
theorem Side.operand (h : c.Side e e') :
    c.Meets (operandOf e (e.render c.left)) (operandOf e' (e'.render c.right)) :=
  meets_operandOf h.compound h.written

/-- Twins as conditions under a connective. -/
theorem Twin.condition (h : c.Twin e e') :
    c.Meets (conditionOf c.left e (e.render c.left))
      (conditionOf c.right e' (e'.render c.right)) := by
  unfold conditionOf
  rw [h.logical]
  dsimp only
  split
  · exact meets_parens h.predicate
  · exact h.predicate

/-- Lists of twins as conditions under a connective. -/
theorem meets_conditions (h : List.Forall₂ c.Twin es es') :
    List.Forall₂ c.Meets (es.zipWith (conditionOf c.left) (renderEach c.left es))
      (es'.zipWith (conditionOf c.right) (renderEach c.right es')) := by
  induction h with
  | nil => exact .nil
  | cons he _ ih => exact .cons he.condition ih

/-! ## Ordinary nodes -/

end Pairing

/-- Whether nothing but the text and the parentheses of an expression matters to what is around it,
if the text is one. -/
def Expr.isOrdinary : Expr → Bool
  | .truth _ | .logical .. | .window .. | .row .. | .textSearch .. | .tuple _ | .foreign _ => false
  | _ => true

namespace Expr

variable {e : Expr}

/-- An ordinary expression is written as a condition like anywhere else. -/
theorem predicateOf_of_isOrdinary (h : e.isOrdinary = true) (d : Dialect) (w : Rendered Fragment) :
    predicateOf d e w = w := by
  cases e with
  | truth _ => cases h
  | _ => cases d <;> rfl

theorem isLogical_of_isOrdinary (h : e.isOrdinary = true) : e.isLogical = false := by
  cases e with
  | logical _ _ _ => cases h
  | _ => rfl

theorem isTextSearch_of_isOrdinary (h : e.isOrdinary = true) : e.isTextSearch = false := by
  cases e with
  | textSearch _ _ => cases h
  | _ => rfl

theorem rowItems?_of_isOrdinary (h : e.isOrdinary = true) : e.rowItems? = none := by
  cases e with
  | row _ _ => cases h
  | _ => rfl

theorem parts_of_isOrdinary (h : e.isOrdinary = true) : e.parts = [] := by
  cases e with
  | row _ _ | textSearch _ _ => cases h
  | _ => rfl

theorem isFrame_of_isOrdinary (h : e.isOrdinary = true) : e.isFrame = false := by
  cases e with
  | window _ _ | tuple _ | foreign _ => cases h
  | _ => rfl

/-- An ordinary expression is no window, and lacks what one has. -/
theorem renderWindow_of_isOrdinary (h : e.isOrdinary = true) (d : Dialect) :
    e.renderWindow d = lacksPart := by
  cases e with
  | window _ _ | tuple _ | foreign _ => cases h
  | _ => rfl

/-- Whether two ordinary expressions are no bare fragments, and stand in parentheses alike. -/
def pairsWith (e e' : Expr) : Bool :=
  e.isOrdinary && e'.isOrdinary && e.bare?.isNone && e'.bare?.isNone &&
    e'.isCompound == e.isCompound

end Expr

namespace Pairing

variable {c : Pairing} {e e' : Expr}

/-- What is no frame lacks the parts of a window. -/
theorem meets_lacksPart (h : c.IsAlone → False) :
    c.Meets (α := Fragment) lacksPart lacksPart := by
  cases c with
  | alone d => exact (h ⟨d, rfl⟩).elim
  | shared | portable d => exact ⟨trivial, trivial⟩

/-- Ordinary expressions are twins if they are written alike. -/
theorem Twin.plain (hpair : e.pairsWith e' = true)
    (h : c.Meets (e.render c.left) (e'.render c.right)) : c.Twin e e' := by
  simp only [Expr.pairsWith, Bool.and_eq_true, Option.isNone_iff_eq_none, beq_iff_eq] at hpair
  obtain ⟨⟨⟨⟨he, he'⟩, hb⟩, hb'⟩, hc⟩ := hpair
  exact {
    written := h
    compound := hc
    bare := hb'.trans hb.symm
    settled := fun _ => hb
    predicate := by
      rwa [Expr.predicateOf_of_isOrdinary he, Expr.predicateOf_of_isOrdinary he']
    logical := by rw [Expr.isLogical_of_isOrdinary he, Expr.isLogical_of_isOrdinary he']
    window := fun hframe => by
      rw [Expr.renderWindow_of_isOrdinary he, Expr.renderWindow_of_isOrdinary he']
      -- an ordinary expression is no frame, so it was never asked to be a window
      refine meets_lacksPart fun ha => ?_
      exact Bool.false_ne_true ((Expr.isFrame_of_isOrdinary he).symm.trans (hframe ha))
    search := by rw [Expr.isTextSearch_of_isOrdinary he, Expr.isTextSearch_of_isOrdinary he']
    row := by
      rw [Expr.isRow, Expr.isRow, Expr.rowItems?_of_isOrdinary he,
        Expr.rowItems?_of_isOrdinary he']
    parts := by
      rw [Expr.parts_of_isOrdinary he, Expr.parts_of_isOrdinary he']
      exact .nil }

end Pairing

end SqlScribe
