import Mathlib.Logic.Function.Basic
import SqlScribe.Dialect.Identifier

/-!
# Quoted names

A reader of a dialect takes a name between quotes character by character. A closing quote alone ends
the name and two of them are one character of it, so on a closing quote the reader has to look one
character further before it knows which: it holds the quote until then.

`readQuoted?_eq_some_iff` says that the reader accepts exactly what `Dialect.quote` writes. The
results at the end follow from it: a quoted name comes back whatever is in it, two names have two
written forms, and nothing in a name lets a reader leave it before its end.
-/

namespace SqlScribe

/-- Characters between quotes: the closing quote stands twice for itself. -/
def doubled (close : Char) (cs : List Char) : List Char :=
  cs.flatMap fun c => if c = close then [c, c] else [c]

/-- The characters up to the quote that ends a name, and what follows it. The flag says whether a
closing quote was just read that may be the end or the first of two. -/
def readBody? (close : Char) : Bool → List Char → Option (List Char × List Char)
  | false, [] => none
  | true, [] => some ([], [])
  | false, c :: cs =>
    if c = close then readBody? close true cs
    else (readBody? close false cs).map fun r => (c :: r.1, r.2)
  | true, c :: cs =>
    if c = close then (readBody? close false cs).map fun r => (c :: r.1, r.2)
    else some ([], c :: cs)

namespace Dialect

/-- The quoted name that stands first in a text, and the text behind it. -/
def readQuoted? (d : Dialect) (text : String) : Option (String × String) :=
  match text.toList with
  | [] => none
  | c :: cs =>
    if c = d.openQuote then
      (readBody? d.closeQuote false cs).map fun r => (String.ofList r.1, String.ofList r.2)
    else none

end Dialect

variable {d : Dialect} {close : Char} {name rest cs : List Char}

/-! ## Doubled quotes -/

@[simp] theorem doubled_nil (close : Char) : doubled close [] = [] := rfl

theorem doubled_cons_self (close : Char) (cs : List Char) :
    doubled close (close :: cs) = close :: close :: doubled close cs := by
  simp [doubled]

theorem doubled_cons_of_ne {c : Char} (h : c ≠ close) (cs : List Char) :
    doubled close (c :: cs) = c :: doubled close cs := by
  simp [doubled, h]

/-- A text without the closing quote is not changed by doubling it. -/
theorem doubled_eq_self (h : close ∉ cs) : doubled close cs = cs := by
  induction cs with
  | nil => rfl
  | cons c cs ih =>
    rw [List.mem_cons, not_or] at h
    rw [doubled_cons_of_ne (Ne.symm h.1), ih h.2]

theorem length_le_length_doubled (close : Char) (cs : List Char) :
    cs.length ≤ (doubled close cs).length := by
  induction cs with
  | nil => exact Nat.le_refl 0
  | cons c cs ih =>
    by_cases hc : c = close
    · subst hc
      rw [doubled_cons_self]
      exact Nat.le_succ_of_le (Nat.succ_le_succ ih)
    · rw [doubled_cons_of_ne hc]
      exact Nat.succ_le_succ ih

/-! ## The body -/

theorem readBody?_doubled (h : rest.head? ≠ some close) (name : List Char) :
    readBody? close false (doubled close name ++ close :: rest) = some (name, rest) := by
  -- on the name; a closing quote in it is read as two
  induction name with
  | nil =>
    rw [doubled_nil, List.nil_append, readBody?, if_pos rfl]
    cases rest with
    | nil => rfl
    | cons c rest =>
      have hc : c ≠ close := fun hc => h (by rw [hc]; rfl)
      rw [readBody?, if_neg hc]
  | cons c name ih =>
    by_cases hc : c = close
    · subst hc
      rw [doubled_cons_self, List.cons_append, List.cons_append, readBody?, if_pos rfl, readBody?,
        if_pos rfl, ih]
      rfl
    · rw [doubled_cons_of_ne hc, List.cons_append, readBody?, if_neg hc, ih]
      rfl

/-- What was read, with the quote the reader holds in front of it, is the written form of the name,
a closing quote that is not doubled, and the rest. -/
theorem eq_doubled_of_readBody? {held : Bool}
    (h : readBody? close held cs = some (name, rest)) :
    (if held then close :: cs else cs) = doubled close name ++ close :: rest ∧
      rest.head? ≠ some close := by
  -- on the text, with a quote held back or none
  induction cs generalizing held name with
  | nil =>
    cases held with
    | false => cases h
    | true =>
      cases h
      exact ⟨rfl, by simp⟩
  | cons c cs ih =>
    cases held with
    | false =>
      rw [readBody?] at h
      split at h
      next hc =>
        -- the quote is held, and nothing is read yet
        obtain ⟨written, hrest⟩ := ih h
        exact ⟨by rw [← written, hc]; rfl, hrest⟩
      next hc =>
        obtain ⟨⟨name', rest'⟩, hread, heq⟩ := Option.map_eq_some_iff.mp h
        cases heq
        obtain ⟨written, hrest⟩ := ih hread
        refine ⟨?_, hrest⟩
        rw [doubled_cons_of_ne hc, List.cons_append, ← written]
        rfl
    | true =>
      rw [readBody?] at h
      split at h
      next hc =>
        subst hc
        obtain ⟨⟨name', rest'⟩, hread, heq⟩ := Option.map_eq_some_iff.mp h
        cases heq
        obtain ⟨written, hrest⟩ := ih hread
        refine ⟨?_, hrest⟩
        rw [doubled_cons_self, List.cons_append, List.cons_append, ← written]
        rfl
      next hc =>
        cases h
        exact ⟨rfl, fun hhead => hc (Option.some.inj hhead)⟩

/-! ## The quoted name -/

theorem toList_quote (d : Dialect) (name : String) :
    (d.quote name).toList =
      d.openQuote :: (doubled d.closeQuote name.toList ++ [d.closeQuote]) := by
  simp [Dialect.quote, doubled]

/-- A reader accepts exactly the quoted names, as far as they go. -/
theorem readQuoted?_eq_some_iff {text name rest : String} :
    d.readQuoted? text = some (name, rest) ↔
      text = d.quote name ++ rest ∧ rest.toList.head? ≠ some d.closeQuote := by
  constructor
  · intro h
    unfold Dialect.readQuoted? at h
    split at h
    · cases h
    next c cs hcs =>
      split at h
      next hc =>
        obtain ⟨⟨name', rest'⟩, hread, heq⟩ := Option.map_eq_some_iff.mp h
        cases heq
        obtain ⟨written, hrest⟩ := eq_doubled_of_readBody? hread
        refine ⟨?_, by rwa [String.toList_ofList]⟩
        rw [← String.toList_inj, String.toList_append, toList_quote, hcs, hc]
        simpa using written
      next => cases h
  · rintro ⟨rfl, hrest⟩
    have chars : (d.quote name ++ rest).toList =
        d.openQuote :: (doubled d.closeQuote name.toList ++ d.closeQuote :: rest.toList) := by
      rw [String.toList_append, toList_quote, List.cons_append, List.append_assoc]
      rfl
    rw [Dialect.readQuoted?, chars]
    simp only [if_true, readBody?_doubled hrest, Option.map_some, String.ofList_toList]

theorem quote_injective (d : Dialect) : Function.Injective d.quote := by
  intro a b hab
  have read (name : String) : d.readQuoted? (d.quote name ++ "") = some (name, "") :=
    readQuoted?_eq_some_iff.mpr ⟨rfl, by simp⟩
  have same : some (a, "") = some (b, "") := by rw [← read a, ← read b, hab]
  cases same
  rfl

/-- A reader that stops inside a name would have read another name, written in the same way. -/
theorem suffix_of_readQuoted? {name after read rest : String}
    (h : d.readQuoted? (d.quote name ++ after) = some (read, rest)) :
    rest.toList <:+ after.toList := by
  obtain ⟨written, hrest⟩ := readQuoted?_eq_some_iff.mp h
  have chars : (d.quote name).toList ++ after.toList = (d.quote read).toList ++ rest.toList := by
    rw [← String.toList_append, written, String.toList_append]
  rcases List.append_eq_append_iff.mp chars with ⟨more, -, hafter⟩ | ⟨left, hname, hleft⟩
  · exact ⟨more, hafter.symm⟩
  · -- the end of the name would be left over after a whole quoted name
    have whole : d.readQuoted? (d.quote name) = some (name, "") :=
      readQuoted?_eq_some_iff.mpr ⟨String.append_empty.symm, by simp⟩
    have cut : d.readQuoted? (d.quote name) = some (read, String.ofList left) := by
      refine readQuoted?_eq_some_iff.mpr ⟨?_, ?_⟩
      · rw [← String.toList_inj, String.toList_append, String.toList_ofList, hname]
      · rw [String.toList_ofList]
        intro hhead
        obtain ⟨tail, rfl⟩ : ∃ tail, left = d.closeQuote :: tail := by
          cases left with
          | nil => cases hhead
          | cons c tail => exact ⟨tail, by rw [Option.some.inj hhead]⟩
        exact hrest (by rw [hleft]; rfl)
    have hnil : left = [] := by
      have same := whole.symm.trans cut
      simp only [Option.some.injEq, Prod.mk.injEq] at same
      rw [← String.toList_ofList (l := left), ← same.2]
      rfl
    exact ⟨[], by rw [hleft, hnil]; rfl⟩

/-- **A quoted name is read back exactly**, with what follows it left as it is, as long as that does
not begin with a closing quote. So two names are never quoted alike; and whatever follows, a reader
does not stop before the end of the name it was given. -/
theorem Dialect.quote_read_back (d : Dialect) :
    (∀ name rest : String, rest.toList.head? ≠ some d.closeQuote →
      d.readQuoted? (d.quote name ++ rest) = some (name, rest)) ∧
    Function.Injective d.quote ∧
    (∀ name after read rest : String,
      d.readQuoted? (d.quote name ++ after) = some (read, rest) →
        rest.toList <:+ after.toList) :=
  ⟨fun _ _ hrest => readQuoted?_eq_some_iff.mpr ⟨rfl, hrest⟩, quote_injective d,
    fun _ _ _ _ h => suffix_of_readQuoted? h⟩

/-- Closing quotes at both ends of the name, and a text behind it that would go on as another
statement. -/
theorem Dialect.quote_read_back_brackets :
    (Dialect.mssql).quote "]a]]" = "[]]a]]]]]" ∧
      (("; DROP TABLE t").toList.head? ≠ some (Dialect.mssql).closeQuote) ∧
      (Dialect.mssql).readQuoted? ((Dialect.mssql).quote "]a]]" ++ "; DROP TABLE t") =
        some ("]a]]", "; DROP TABLE t") :=
  ⟨by decide, by decide, (Dialect.quote_read_back .mssql).1 _ _ (by decide)⟩

end SqlScribe
