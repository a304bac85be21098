import SqlScribe.Proofs.Piece
import SqlScribe.Proofs.Typed

/-!
# Formulas and their reader

A formula is an expression of columns, values, operators, connectives, memberships in lists and
calls. `Expr.normal` forgets what no text shows: the case of letters in the name of a function, and
whether a missing table is given as the empty text.

The reader goes by the layout of formulas. A connective joins conditions; a condition is a negation
or begins with an operand, and what stands behind the operand tells the kind of condition; an
operand is a value, a column, a call, or anything between parentheses. Nothing is ever read twice,
so the text leaves the reader no choice.

The reader goes down a bounded number of levels. On what was written for a formula it comes to an
end within any bound that is large enough, which is what another module shows.
-/

namespace SqlScribe

/-! ## Formulas -/

/-- Whether the root of a tree is one of a formula, with parts of the declared types. -/
def Tree.IsFormula : Tree → Prop
  | .expr (.column table name) => table.isName = true ∧ name.isText = true
  | .expr (.literal _) | .expr (.not _) | .expr (.binary ..) => True
  | .expr (.isNull _ negated) | .expr (.between _ _ _ negated) => negated.isSwitch = true
  | .expr (.logical _ _ rest) => rest ≠ []
  | .expr (.inList operand items negated) =>
    operand.isRow = false ∧ items ≠ [] ∧ negated.isSwitch = true
  | .expr (.call _ _ distinct) => distinct.isSwitch = true
  | _ => False

/-! ## Capitals -/

theorem isLower_iff {c : Char} : c.isLower = true ↔ 'a'.val ≤ c.val ∧ c.val ≤ 'z'.val :=
  Bool.and_eq_true_iff.trans (and_congr decide_eq_true_iff decide_eq_true_iff)

theorem isUpper_iff {c : Char} : c.isUpper = true ↔ 'A'.val ≤ c.val ∧ c.val ≤ 'Z'.val :=
  decide_eq_true_iff

/-- A small letter becomes a capital, and every other character stays. -/
theorem toUpper_cases (c : Char) : c.toUpper = c ∨ c.isLower = true ∧ c.toUpper.isUpper = true := by
  have bounds : c.toUpper = c ∨ ('a'.val ≤ c.val ∧ c.val ≤ 'z'.val) ∧
      'A'.val ≤ c.toUpper.val ∧ c.toUpper.val ≤ 'Z'.val := by
    unfold Char.toUpper
    split
    next hc => exact .inr ⟨hc, by grind, by grind⟩
    · exact .inl rfl
  exact bounds.imp_right (And.imp isLower_iff.mpr isUpper_iff.mpr)

theorem toUpper_toUpper (c : Char) : c.toUpper.toUpper = c.toUpper := by
  rcases toUpper_cases c with h | ⟨-, hupper⟩
  · rw [h, h]
  · refine (toUpper_cases c.toUpper).resolve_right fun ⟨hlower, _⟩ => ?_
    rw [isUpper_iff] at hupper
    rw [isLower_iff] at hlower
    grind

theorem toUpper_eq_iff {c d : Char} (hl : d.isLower = false) (hu : d.isUpper = false) :
    c.toUpper = d ↔ c = d := by
  rcases toUpper_cases c with h | ⟨hlower, hupper⟩
  · rw [h]
  · refine iff_of_false ?_ ?_
    · rintro rfl
      cases hupper.symm.trans hu
    · rintro rfl
      cases hlower.symm.trans hl

theorem isWordStart_toUpper {c : Char} (h : isWordStart c = true) :
    isWordStart c.toUpper = true := by
  rcases toUpper_cases c with hc | ⟨-, hupper⟩
  · rwa [hc]
  · have alpha : c.toUpper.isAlpha = true := Bool.or_eq_true_iff.mpr (.inl hupper)
    rw [isWordStart, alpha, Bool.true_or]

theorem isWordChar_toUpper {c : Char} (h : isWordChar c = true) :
    isWordChar c.toUpper = true := by
  rcases toUpper_cases c with hc | ⟨-, hupper⟩
  · rwa [hc]
  · have alpha : c.toUpper.isAlpha = true := Bool.or_eq_true_iff.mpr (.inl hupper)
    rw [isWordChar, Char.isAlphanum, alpha, Bool.true_or, Bool.true_or]

theorem dropFinalBreak_toUpper (cs : List Char) :
    dropFinalBreak (cs.map Char.toUpper) = (dropFinalBreak cs).map Char.toUpper := by
  have last : (cs.map Char.toUpper).getLast? = some '\n' ↔ cs.getLast? = some '\n' := by
    rw [List.getLast?_map]
    cases cs.getLast? with
    | none => simp
    | some c => simp [toUpper_eq_iff (c := c) (d := '\n') (by decide) (by decide)]
  unfold dropFinalBreak
  simp only [last]
  split
  · exact List.map_dropLast.symm
  · rfl

theorem splitPoints_toUpper (cs : List Char) :
    splitPoints (cs.map Char.toUpper) = (splitPoints cs).map (List.map Char.toUpper) := by
  induction cs using splitPoints.induct with
  | case1 => rfl
  | case2 rest ih =>
    show splitPoints ('.' :: rest.map Char.toUpper) = _
    rw [splitPoints, splitPoints, ih]
    rfl
  | case3 c rest hne hs ih | case4 c rest hne part parts hs ih =>
    have hc : c.toUpper ≠ '.' := fun h => hne ((toUpper_eq_iff (by decide) (by decide)).mp h)
    rw [hs] at ih
    simp [splitPoints, hs, ih]

theorem isWord_toUpper {cs : List Char} (h : isWord cs = true) :
    isWord (cs.map Char.toUpper) = true := by
  cases cs with
  | nil => cases h
  | cons c rest =>
    simp only [isWord, Bool.and_eq_true, List.all_eq_true] at h
    simp only [List.map_cons, isWord, Bool.and_eq_true, List.all_eq_true, List.forall_mem_map]
    exact ⟨isWordStart_toUpper h.1, fun c hc => isWordChar_toUpper (h.2 c hc)⟩

namespace FunctionName

/-- The name of a function in capitals. -/
def upper (f : FunctionName) : FunctionName where
  text := f.capitals
  valid := by
    unfold isFunctionName capitals
    rw [String.toList_ofList, dropFinalBreak_toUpper, splitPoints_toUpper, List.all_map,
      List.all_eq_true]
    exact fun part hp => isWord_toUpper (List.all_eq_true.mp f.valid part hp)

theorem capitals_upper (f : FunctionName) : f.upper.capitals = f.capitals := by
  have twice : (f.text.toList.map Char.toUpper).map Char.toUpper =
      f.text.toList.map Char.toUpper := by
    rw [List.map_map]
    exact List.map_congr_left fun c _ => toUpper_toUpper c
  show String.ofList ((String.ofList (f.text.toList.map Char.toUpper)).toList.map Char.toUpper) = _
  rw [String.toList_ofList, twice, capitals]

theorem ofText?_capitals (f : FunctionName) : ofText? f.capitals = some f.upper :=
  ofText?_eq_some_iff.mpr rfl

end FunctionName

/-! ## Normal forms -/

namespace Expr

/-- A name as a plain text. -/
def plainName (n : Name) : Name :=
  match n.asText? with
  | some s => .word s
  | none => n

/-- A table as a plain text, or nothing if it is left out. -/
def plainTable (table : Name) : Name := if table.isTrue then table.plainName else .absent

mutual

/-- A formula without what no text shows of it. -/
def normal : Expr → Expr
  | .column table name => .column table.plainTable name.plainName
  | .not operand => .not operand.normal
  | .isNull operand negated => .isNull operand.normal negated
  | .binary op left right => .binary op left.normal right.normal
  | .logical op first rest => .logical op first.normal (normals rest)
  | .inList operand items negated => .inList operand.normal (normals items) negated
  | .between operand low high negated => .between operand.normal low.normal high.normal negated
  | .call name args distinct => .call name.upper (normals args) distinct
  | e => e

/-- The normal forms of a list of formulas. -/
def normals : List Expr → List Expr
  | [] => []
  | e :: rest => e.normal :: normals rest

end

end Expr

/-! ## Tails -/

/-- What may stand behind the operand that a condition begins with. -/
inductive Tail where
  | isNull (negated : Bool)
  | binary (op : Operator)
  | inList (negated : Bool)
  | between (negated : Bool)
deriving DecidableEq

namespace Tail

/-- The text of a tail up to the next operand or list. -/
def text : Tail → String
  | isNull negated => if negated then " IS NOT NULL" else " IS NULL"
  | binary op => " " ++ op.text ++ " "
  | inList negated => " " ++ keyword negated "IN" ++ " ("
  | between negated => " " ++ keyword negated "BETWEEN" ++ " "

/-- All tails. -/
def all : List Tail :=
  [.isNull false, .isNull true, .inList false, .inList true, .between false, .between true] ++
    Operator.all.map .binary

theorem mem_all (t : Tail) : t ∈ all := by
  cases t with
  | isNull negated | inList negated | between negated => cases negated <;> decide
  | binary op => cases op <;> decide

/-- No tail begins with another. -/
theorem eq_of_isPrefix : ∀ t ∈ all, ∀ t' ∈ all, t.text.toList <+: t'.text.toList → t = t' := by
  decide +kernel

end Tail

/-- The text of a connective between two conditions. -/
def Connective.separator (op : Connective) : String := " " ++ op.text ++ " "

/-- Nor does a tail begin with what stands behind a whole condition, or that with a tail. -/
theorem Tail.not_isPrefix : ∀ t ∈ Tail.all,
    ∀ s ∈ [")", ",", Connective.and.separator, Connective.or.separator],
      ¬t.text.toList <+: s.toList ∧ ¬s.toList <+: t.text.toList := by
  decide +kernel

/-! ## The reader -/

/-- The characters of words and of the names of functions: those of names, and points. -/
def isPathChar (c : Char) : Bool := isNameChar c || c = '.'

/-- What follows a word and a blank, if these stand first. -/
def afterWord (word : String) (ps : List Piece) : Option (List Piece) :=
  match run isPathChar ps with
  | (cs, .char ' ' :: rest) => if cs = word.toList then some rest else none
  | _ => none

/-- The column that stands first. -/
def readColumn (d : Dialect) (ps : List Piece) : Option (Expr × List Piece) := do
  let (first, rest) ← readName d ps
  match rest with
  | .char '.' :: rest => do
    let (second, rest) ← readName d rest
    return (.column (.word first) (.word second), rest)
  | rest => return (.column .absent (.word first), rest)

/-- The tail that stands first. -/
def readTailText (ps : List Piece) : Option (Tail × List Piece) := readFirst Tail.text Tail.all ps

/-- The connective that stands first, with its blanks. -/
def readConnective (ps : List Piece) : Option (Connective × List Piece) :=
  readFirst Connective.separator [.and, .or] ps

mutual

/-- The operand that stands first: a formula between parentheses, a value, a call or a column. -/
def readOperand (d : Dialect) : Nat → List Piece → Option (Expr × List Piece)
  | 0, _ => none
  | n + 1, ps =>
    match run isPathChar ps with
    | ([], .char '(' :: rest) => do
      let (e, rest) ← readWhole d n rest
      return (e, ← strip [')'] rest)
    | ([], .value v :: rest) => some (.literal v, rest)
    | (c :: cs, .char '(' :: rest) => do
      let name ← FunctionName.ofText? (String.ofList (c :: cs))
      let inner := afterWord "DISTINCT" rest
      let (args, rest) ← readItems d n (inner.getD rest)
      return (.call name args (.switch inner.isSome), rest)
    | _ => readColumn d ps

/-- The condition that stands first. -/
def readCondition (d : Dialect) : Nat → List Piece → Option (Expr × List Piece)
  | 0, _ => none
  | n + 1, ps =>
    match afterWord "NOT" ps with
    | some rest => do
      let (e, rest) ← readOperand d n rest
      return (.not e, rest)
    | none => do
      let (e, rest) ← readOperand d n ps
      readTail d n e rest

/-- The condition that begins with an operand. -/
def readTail (d : Dialect) : Nat → Expr → List Piece → Option (Expr × List Piece)
  | 0, _, _ => none
  | n + 1, e, ps =>
    match readTailText ps with
    | none => some (e, ps)
    | some (.isNull negated, rest) => some (.isNull e (.switch negated), rest)
    | some (.binary op, rest) => do
      let (right, rest) ← readOperand d n rest
      return (.binary op e right, rest)
    | some (.inList negated, rest) => do
      let (items, rest) ← readItems d n rest
      return (.inList e items (.switch negated), rest)
    | some (.between negated, rest) => do
      let (low, rest) ← readOperand d n rest
      let rest ← strip (Connective.and.separator).toList rest
      let (high, rest) ← readOperand d n rest
      return (.between e low high (.switch negated), rest)

/-- The formula that stands first. -/
def readWhole (d : Dialect) : Nat → List Piece → Option (Expr × List Piece)
  | 0, _ => none
  | n + 1, ps => do
    let (e, rest) ← readCondition d n ps
    match readConnective rest with
    | none => return (e, rest)
    | some (op, _) => do
      let (es, rest) ← readMore d n op rest
      return (.logical op e es, rest)

/-- The conditions that follow, each behind the connective. -/
def readMore (d : Dialect) : Nat → Connective → List Piece → Option (List Expr × List Piece)
  | 0, _, _ => none
  | n + 1, op, ps =>
    match readConnective ps with
    | none => some ([], ps)
    | some (op', rest) =>
      if op' = op then do
        let (e, rest) ← readCondition d n rest
        let (es, rest) ← readMore d n op rest
        return (e :: es, rest)
      else none

/-- The formulas of a list up to its closing parenthesis. -/
def readItems (d : Dialect) : Nat → List Piece → Option (List Expr × List Piece)
  | 0, _ => none
  | _ + 1, .char ')' :: rest => some ([], rest)
  | n + 1, ps => do
    let (e, rest) ← readWhole d n ps
    let (es, rest) ← readOthers d n rest
    return (e :: es, rest)

/-- The other formulas of a list, each behind a comma. -/
def readOthers (d : Dialect) : Nat → List Piece → Option (List Expr × List Piece)
  | 0, _ => none
  | _ + 1, .char ')' :: rest => some ([], rest)
  | n + 1, ps => do
    let rest ← strip [',', ' '] ps
    let (e, rest) ← readWhole d n rest
    let (es, rest) ← readOthers d n rest
    return (e :: es, rest)

end

end SqlScribe
