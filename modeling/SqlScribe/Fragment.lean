import SqlScribe.Dialect.Identifier
import SqlScribe.Value.Conversion

/-!
# Fragments of statements

A fragment is a part of a statement before it is spelled: fixed text, names that still have to be
quoted where needed, and slots for values, each with its value. Fragments that stand side by side
make a fragment, and the order of their text is the order in which their values are bound. Only a
crossed pair binds its second part before its first.

`Fragment.write` turns a fragment into text. Only there the setting for quotes and the numbers of
the values come in: it is told what a value with a number leaves in the text. In a statement that is
the place of the number (`Fragment.spell`), and no value is ever looked at.
-/

namespace SqlScribe

/-- A part of a statement with the values that it binds. -/
inductive Fragment where
  /-- Nothing at all. -/
  | empty
  | text (s : String) (rest : Fragment)
  | name (n : String) (rest : Fragment)
  /-- The place of a value. -/
  | slot (v : Value) (rest : Fragment)
  /-- Two parts side by side, of which the second is bound before the first. -/
  | crossed (first second rest : Fragment)

namespace Fragment

/-- The number of values that a fragment binds. -/
def size : Fragment → Nat
  | empty => 0
  | text _ rest | name _ rest => rest.size
  | slot _ rest => 1 + rest.size
  | crossed first second rest => second.size + first.size + rest.size

/-- The values that a fragment binds, in the order in which it binds them. -/
def values : Fragment → List Value
  | empty => []
  | text _ rest | name _ rest => rest.values
  | slot v rest => v :: rest.values
  | crossed first second rest => second.values ++ first.values ++ rest.values

/-- Two fragments side by side. -/
def append : Fragment → Fragment → Fragment
  | empty, g => g
  | text s rest, g => text s (rest.append g)
  | name n rest, g => name n (rest.append g)
  | slot v rest, g => slot v (rest.append g)
  | crossed first second rest, g => crossed first second (rest.append g)

instance : Append Fragment := ⟨append⟩

/-- Fixed text. -/
def ofText (s : String) : Fragment := text s empty

instance : Coe String Fragment := ⟨ofText⟩

/-- A name. -/
def ofName (n : String) : Fragment := name n empty

/-- A bound value. -/
def bound (v : Value) : Fragment := slot v empty

/-- Two fragments side by side, of which the second is bound before the first. -/
def cross (f g : Fragment) : Fragment := crossed f g empty

/-- Fragments with a text between them. -/
def join (separator : String) : List Fragment → Fragment
  | [] => empty
  | [f] => f
  | f :: rest => f ++ separator ++ join separator rest

/-- A fragment between parentheses. -/
def parens (f : Fragment) : Fragment := "(" ++ f ++ ")"

/-- Fragments between parentheses, with commas between them. -/
def tuple (fs : List Fragment) : Fragment := parens (join ", " fs)

/-- A bound value for data. -/
def bind (f : Fragment) (d : Data) : Except EncodingError Fragment :=
  (Value.ofData d).map fun v => f ++ bound v

/-- The written form of a fragment behind `n` other values, where `place i v` is what the value `v`
with number `i`, counted from zero, leaves in the text. -/
def write (style : Style) (place : Nat → Value → String) (n : Nat) : Fragment → String
  | empty => ""
  | text s rest => s ++ rest.write style place n
  | name a rest => style.identifier a ++ rest.write style place n
  | slot v rest => place n v ++ rest.write style place (n + 1)
  | crossed first second rest =>
    first.write style place (n + second.size) ++ second.write style place n ++
      rest.write style place (n + (second.size + first.size))

/-- The written form of a fragment, with places for its values. -/
def spell (style : Style) (f : Fragment) : String :=
  f.write style (fun i _ => style.dialect.placeholder (i + 1)) 0

/-- The written form of a fragment, with its values shown where they are bound. -/
def showIn (style : Style) (show' : Value → String) (f : Fragment) : String :=
  f.write style (fun _ v => show' v) 0

/-! ## Laws -/

@[simp] theorem empty_append (f : Fragment) : empty ++ f = f := rfl

@[simp] theorem text_append (s : String) (f g : Fragment) : text s f ++ g = text s (f ++ g) := rfl

@[simp] theorem name_append (n : String) (f g : Fragment) : name n f ++ g = name n (f ++ g) := rfl

@[simp] theorem slot_append (v : Value) (f g : Fragment) : slot v f ++ g = slot v (f ++ g) := rfl

@[simp] theorem crossed_append (a b f g : Fragment) :
    crossed a b f ++ g = crossed a b (f ++ g) := rfl

@[simp] theorem append_empty (f : Fragment) : f ++ empty = f := by
  induction f with
  | empty => rfl
  | text s rest ih | name n rest ih | slot v rest ih => simp [ih]
  | crossed a b rest _ _ ih => simp [ih]

theorem append_assoc (f g h : Fragment) : f ++ g ++ h = f ++ (g ++ h) := by
  induction f with
  | empty => rfl
  | text s rest ih | name n rest ih | slot v rest ih => simp [ih]
  | crossed a b rest _ _ ih => simp [ih]

@[simp] theorem values_append (f g : Fragment) : (f ++ g).values = f.values ++ g.values := by
  induction f with
  | empty => rfl
  | text s rest ih | name n rest ih | slot v rest ih => simp [values, ih]
  | crossed a b rest _ _ ih => simp [values, ih]

theorem size_eq_length (f : Fragment) : f.size = f.values.length := by
  induction f with
  | empty => rfl
  | text s rest ih | name n rest ih => simp [size, values, ih]
  | slot v rest ih => simp [size, values, ih, Nat.add_comm]
  | crossed a b rest iha ihb ih => simp [size, values, iha, ihb, ih, Nat.add_assoc]

@[simp] theorem size_append (f g : Fragment) : (f ++ g).size = f.size + g.size := by
  simp [size_eq_length]

/-- The later of two fragments is written behind the values of the earlier one. -/
theorem write_append (style : Style) (place : Nat → Value → String) (n : Nat) (f g : Fragment) :
    (f ++ g).write style place n = f.write style place n ++ g.write style place (n + f.size) := by
  induction f generalizing n with
  | empty => simp [write, size]
  | text s rest ih | name a rest ih => simp [write, size, ih, String.append_assoc]
  | slot v rest ih => simp [write, size, ih, String.append_assoc, Nat.add_assoc]
  | crossed a b rest _ _ ih => simp [write, size, ih, String.append_assoc, Nat.add_assoc]

end Fragment

end SqlScribe
