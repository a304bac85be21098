import SqlScribe.Proofs.JsonDocument
import SqlScribe.Proofs.WrittenNumber

/-!
# Written documents are read back

The text of a document is read as the data of the document, up to where it ends. A scalar ends where
no number goes on, a string at its closing quote, and an array or an object at its closing bracket.
Inside an array or an object every part ends where a comma or the closing bracket follows, so the
induction is on the document, for all texts behind it that begin like that.

The fuel lasts because every part has a text of its own, and the fuel is the length of the whole.

It follows that no two documents have one text. What is read tells the kind of a document; an array
or an object is then taken apart from the left, because its parts are read up to where they end.
-/

namespace SqlScribe.Json

open Text Double

/-! ## Strings -/

theorem one_le_length_escapeChar (c : Char) : 1 ≤ (escapeChar c).length := by
  unfold escapeChar
  split_ifs <;> simp

/-- The codes of the control characters have four digits, and are read back. -/
theorem readCode?_padded {n : Nat} (hn : n < 32) (rest : List Char) :
    readCode? (padded 16 4 n ++ rest) = some (n, rest) := by
  have digits : ∀ n < 32, ∃ a b c d, padded 16 4 n = [a, b, c, d] ∧
      readNat? 16 [a, b, c, d] = some n := by
    intro n hn
    have table : ∀ n < 32, padded 16 4 n = ['0', '0', (n / 16).digitChar, (n % 16).digitChar] ∧
        readNat? 16 ['0', '0', (n / 16).digitChar, (n % 16).digitChar] = some n := by decide
    exact ⟨_, _, _, _, table n hn⟩
  obtain ⟨a, b, c, d, htext, hread⟩ := digits n hn
  rw [htext]
  show (readNat? 16 [a, b, c, d]).map (fun n => (n, rest)) = _
  rw [hread]
  rfl

/-- A letter behind a backslash stands for a character. -/
theorem readString?_letter (fuel : Nat) {l c : Char} (hl : escapedLetter? l = some c) (hu : l ≠ 'u')
    (cs : List Char) :
    readString? (fuel + 1) ('\\' :: l :: cs) =
      (readString? fuel cs).map fun r => (c :: r.1, r.2) := by
  rw [readString?.eq_def]
  dsimp only
  split
  next heq => cases heq
  next heq =>
    injection heq with _ heq
    injection heq with heq
    exact absurd heq hu
  next heq =>
    injection heq with _ heq
    injection heq with hhead htail
    subst hhead htail
    rw [hl]
    cases readString? fuel cs <;> rfl
  next hnot heq =>
    injection heq with hhead htail
    subst hhead htail
    exact absurd rfl (hnot l cs rfl)
  next heq => cases heq

/-- A control character is read from its code. -/
theorem readString?_code (fuel : Nat) {c : Char} (hc : c.toNat < 32) (cs : List Char) :
    readString? (fuel + 1) ('\\' :: 'u' :: (padded 16 4 c.toNat ++ cs)) =
      (readString? fuel cs).map fun r => (c :: r.1, r.2) := by
  have code := readCode?_padded hc cs
  have escaped : readEscaped? (padded 16 4 c.toNat ++ cs) = some (c, cs) := by
    have low : ¬ 0xD800 ≤ c.toNat := by omega
    simp [readEscaped?, code, low]
  rw [readString?, escaped, Option.bind_eq_bind, Option.bind_some]
  dsimp only
  cases readString? fuel cs <;> rfl

/-- Any other character stands for itself. -/
theorem readString?_plain (fuel : Nat) {c : Char} (hquote : c ≠ '"') (hback : c ≠ '\\')
    (hc : ¬c.toNat < 32) (cs : List Char) :
    readString? (fuel + 1) (c :: cs) = (readString? fuel cs).map fun r => (c :: r.1, r.2) := by
  rw [readString?.eq_def]
  dsimp only
  split
  next heq =>
    injection heq with heq
    exact absurd heq hquote
  next heq =>
    injection heq with heq
    exact absurd heq hback
  next heq =>
    injection heq with heq
    exact absurd heq hback
  next heq =>
    injection heq with hhead htail
    subst hhead htail
    rw [if_neg (by simp [hback, hc])]
    cases readString? fuel cs <;> rfl
  next heq => cases heq

/-- An escaped character is read as the character. -/
theorem readString?_escapeChar (fuel : Nat) (c : Char) (cs : List Char) :
    readString? (fuel + 1) (escapeChar c ++ cs) =
      (readString? fuel cs).map fun r => (c :: r.1, r.2) := by
  unfold escapeChar
  -- the characters that have a letter, the other control characters, and all the rest
  split_ifs with h₁ h₂ h₃ h₄ h₅ h₆ h₇ h₈
  · subst h₁
    exact readString?_letter fuel (l := '"') rfl (by decide) cs
  · subst h₂
    exact readString?_letter fuel (l := '\\') rfl (by decide) cs
  · subst h₃
    exact readString?_letter fuel (l := 'n') rfl (by decide) cs
  · subst h₄
    exact readString?_letter fuel (l := 'r') rfl (by decide) cs
  · subst h₅
    exact readString?_letter fuel (l := 't') rfl (by decide) cs
  · rw [← Char.ofNat_toNat c, h₆]
    exact readString?_letter fuel (l := 'b') rfl (by decide) cs
  · rw [← Char.ofNat_toNat c, h₇]
    exact readString?_letter fuel (l := 'f') rfl (by decide) cs
  · exact readString?_code fuel h₈ cs
  · exact readString?_plain fuel h₁ h₂ h₈ cs

/-- A written string is read up to its closing quote. -/
theorem readString?_escaped (cs rest : List Char) {fuel : Nat} (h : cs.length < fuel) :
    readString? fuel (cs.flatMap escapeChar ++ '"' :: rest) = some (cs, rest) := by
  induction cs generalizing fuel with
  | nil =>
    obtain ⟨fuel, rfl⟩ := Nat.exists_eq_add_of_lt h
    rfl
  | cons c cs ih =>
    obtain ⟨fuel, rfl⟩ : ∃ n, fuel = n + 1 := ⟨fuel - 1, by omega⟩
    rw [List.flatMap_cons, List.append_assoc, readString?_escapeChar,
      ih (by simpa using h)]
    rfl

theorem length_le_length_flatMap_escapeChar (cs : List Char) :
    cs.length ≤ (cs.flatMap escapeChar).length := by
  induction cs with
  | nil => exact le_rfl
  | cons c cs ih =>
    have := one_le_length_escapeChar c
    rw [List.flatMap_cons, List.length_append, List.length_cons]
    omega

/-- The length of the text is enough for this. -/
theorem readString?_written (cs rest : List Char) :
    readString? (cs.flatMap escapeChar ++ '"' :: rest).length
      (cs.flatMap escapeChar ++ '"' :: rest) = some (cs, rest) := by
  refine readString?_escaped cs rest ?_
  have := length_le_length_flatMap_escapeChar cs
  rw [List.length_append, List.length_cons]
  omega

/-! ## Scalars -/

/-- Whether a text begins with the end of a part, or is at its end. -/
def EndsValue (rest : List Char) : Prop := ∀ c ∈ rest.head?, c = ',' ∨ c = ']' ∨ c = '\x7d'

theorem EndsValue.endsNumber {rest : List Char} (h : EndsValue rest) : EndsNumber rest := by
  intro c hc
  rcases h c hc with rfl | rfl | rfl <;> decide

theorem isSpace_of_isDigit {c : Char} (h : isDigit c = true) : isSpace c = false := by
  have := toNat_of_isDigit h
  rw [Bool.eq_false_iff]
  intro hspace
  simp only [isSpace, Bool.or_eq_true, decide_eq_true_eq] at hspace
  rcases hspace with ((rfl | rfl) | rfl) | rfl <;> simp_all

theorem ne_of_isDigit {c c' : Char} (h : isDigit c = true) (h' : isDigit c' = false) : c' ≠ c := by
  rintro rfl
  exact absurd h (by rw [h']; decide)

/-- A digit begins no word. -/
theorem readWord?_of_isDigit {c : Char} (h : isDigit c = true) (cs : List Char) :
    readWord? (c :: cs) = none := by
  have letter (l : Char) (hl : isDigit l = false) : l ≠ c := ne_of_isDigit h hl
  have hn := letter 'n' rfl
  have ht := letter 't' rfl
  have hf := letter 'f' rfl
  have hN := letter 'N' rfl
  have hI := letter 'I' rfl
  have hm := letter '-' rfl
  simp [readWord?, hn, ht, hf, hN, hI, hm]

/-- A minus before a digit begins no word either. -/
theorem readWord?_of_minus {c : Char} (h : isDigit c = true) (cs : List Char) :
    readWord? ('-' :: c :: cs) = none := by
  have hI : 'I' ≠ c := ne_of_isDigit h rfl
  simp [readWord?, hI]

/-- A number is read with its sign. -/
theorem readScalar?_signed (negative : Bool) {c : Char} (h : isDigit c = true) (cs : List Char) :
    readScalar? ((if negative then ['-'] else []) ++ c :: cs) = readNumber? negative (c :: cs) := by
  cases negative with
  | true =>
    show readScalar? ('-' :: c :: cs) = _
    rw [readScalar?, readWord?_of_minus h]
  | false =>
    show readScalar? (c :: cs) = _
    have unsigned : ∀ rest, c :: cs ≠ '-' :: rest := by
      intro rest he
      injection he with he
      exact ne_of_isDigit h rfl he.symm
    rw [readScalar?, readWord?_of_isDigit h]
    exact unsigned

/-- Whether a text is that of a scalar which is no string. -/
structure IsScalar (cs : List Char) (d : Data) : Prop where
  /-- It begins neither with a blank nor with a quote or a bracket. -/
  head : ∃ c tail, cs = c :: tail ∧ isSpace c = false ∧ c ∉ [']', '"', '[', '\x7b']
  /-- It is read up to its end. -/
  reads : ∀ rest, EndsValue rest → readScalar? (cs ++ rest) = some (d, rest)

/-- Every word is a scalar. -/
theorem isScalar_word (word : String) {d : Data}
    (h : (word, d) ∈ [("null", .null), ("true", .bool true), ("false", .bool false),
      ("NaN", .float .nan), ("Infinity", .float (.infinity false)),
      ("-Infinity", .float (.infinity true))]) : IsScalar word.toList d := by
  simp only [List.mem_cons, Prod.mk.injEq, List.not_mem_nil, or_false] at h
  rcases h with ⟨rfl, rfl⟩ | ⟨rfl, rfl⟩ | ⟨rfl, rfl⟩ | ⟨rfl, rfl⟩ | ⟨rfl, rfl⟩ | ⟨rfl, rfl⟩ <;>
    exact ⟨⟨_, _, rfl, by decide, by decide⟩, fun rest _ => rfl⟩

/-- A number is a scalar if it begins with a digit and is read up to its end. -/
theorem isScalar_number (negative : Bool) {c : Char} {cs : List Char} {d : Data}
    (h : isDigit c = true)
    (reads : ∀ rest, EndsNumber rest → readNumber? negative (c :: cs ++ rest) = some (d, rest)) :
    IsScalar ((if negative then ['-'] else []) ++ c :: cs) d := by
  refine ⟨?_, fun rest hrest => ?_⟩
  · cases negative with
    | true => exact ⟨'-', c :: cs, rfl, by decide, by decide⟩
    | false =>
      refine ⟨c, cs, rfl, isSpace_of_isDigit h, fun hc => ?_⟩
      simp only [List.mem_cons, List.not_mem_nil, or_false] at hc
      rcases hc with rfl | rfl | rfl | rfl <;> exact absurd h (by decide)
  · rw [List.append_assoc, List.cons_append, readScalar?_signed negative h]
    exact reads rest hrest.endsNumber

theorem isScalar_int (n : Int) : IsScalar (intText n).toList (.int n) := by
  have front : ∀ n, ∃ c cs, Nat.toDigits 10 n = c :: cs ∧ isDigit c = true := by
    intro n
    obtain ⟨c, cs, h⟩ := List.exists_cons_of_ne_nil (Nat.toDigits_ne_nil (n := n) (b := 10))
    exact ⟨c, cs, h, isDigit_of_mem_toDigits (n := n) (by rw [h]; exact List.mem_cons_self)⟩
  cases n with
  | ofNat n =>
    obtain ⟨c, cs, htext, hc⟩ := front n
    have text : (intText (.ofNat n)).toList = c :: cs := by
      rw [← htext]
      simp [intText, natText]
    rw [text]
    refine isScalar_number false hc fun rest hrest => ?_
    rw [← htext]
    exact readNumber?_toDigits false n hrest
  | negSucc n =>
    obtain ⟨c, cs, htext, hc⟩ := front (n + 1)
    have text : (intText (.negSucc n)).toList = '-' :: c :: cs := by
      rw [← htext]
      simp [intText, natText]
    rw [text]
    refine isScalar_number true hc fun rest hrest => ?_
    rw [← htext]
    exact readNumber?_toDigits true (n + 1) hrest

theorem isScalar_double (x : Double) : IsScalar (doubleText x).toList (.float x) := by
  cases x with
  | nan => exact isScalar_word "NaN" (by simp)
  | infinity negative =>
    cases negative with
    | true => exact isScalar_word "-Infinity" (by simp)
    | false => exact isScalar_word "Infinity" (by simp)
  | finite negative rank hrank =>
    obtain ⟨whole, fraction, exponent, htext, hspells, hnear⟩ := magnitudeText_eq_spelled hrank
    obtain ⟨c, ds, rfl⟩ := List.exists_cons_of_ne_nil hspells.whole_ne_nil
    have hc : isDigit c = true := hspells.digits c List.mem_cons_self
    have text : (doubleText (.finite negative rank hrank)).toList =
        (if negative then ['-'] else []) ++ spelled (c :: ds) fraction exponent := by
      show (String.ofList ((if negative then ['-'] else []) ++ magnitudeText rank)).toList = _
      rw [String.toList_ofList, htext]
    rw [text]
    refine isScalar_number negative hc fun rest hrest => ?_
    have read := readNumber?_spelled negative hspells hrest
    rwa [hnear negative] at read

/-! ## Parts between commas -/

/-- What stands behind a part: the other parts, each behind a comma, and the closing bracket. -/
def behind (close : Char) : List (List Char) → List Char → List Char
  | [], rest => close :: rest
  | part :: parts, rest => ',' :: (part ++ behind close parts rest)

theorem endsValue_behind {close : Char} (h : close = ']' ∨ close = '\x7d')
    (parts : List (List Char)) (rest : List Char) : EndsValue (behind close parts rest) := by
  cases parts with
  | nil =>
    rintro _ ⟨⟩
    exact .inr h
  | cons part parts =>
    rintro _ ⟨⟩
    exact .inl rfl

/-- Parts with commas between them, and a closing bracket behind them. -/
theorem intercalate_append (close : Char) (part : List Char) (parts : List (List Char))
    (rest : List Char) :
    [','].intercalate (part :: parts) ++ close :: rest = part ++ behind close parts rest := by
  induction parts generalizing part with
  | nil => simp [behind]
  | cons next parts ih =>
    rw [List.intercalate_cons_cons, List.append_assoc, List.append_assoc, ih]
    rfl

theorem skipSpace_of_head {c : Char} (h : isSpace c = false) (cs : List Char) :
    skipSpace (c :: cs) = c :: cs := by
  rw [skipSpace, List.dropWhile_cons, h]
  rfl

namespace Document

/-- The characters of a document. -/
def chars (d : Document) : List Char := d.written.toList

/-- The characters of a member of an object. -/
def memberChars (m : String × Document) : List Char :=
  '"' :: (m.1.toList.flatMap escapeChar ++ '"' :: ':' :: m.2.chars)

theorem memberChars_append (name : String) (d : Document) (rest : List Char) :
    memberChars (name, d) ++ rest =
      '"' :: (name.toList.flatMap escapeChar ++ '"' :: (':' :: (d.chars ++ rest))) := by
  simp [memberChars]

theorem toList_stringText (s : String) :
    (stringText s).toList = '"' :: (s.toList.flatMap escapeChar ++ ['"']) := by
  rw [stringText, String.toList_ofList, List.cons_append]

theorem chars_array_nil : (array []).chars = ['[', ']'] := rfl

theorem chars_array_cons (d : Document) (ds : List Document) (rest : List Char) :
    (array (d :: ds)).chars ++ rest = '[' :: (d.chars ++ behind ']' (ds.map chars) rest) := by
  have texts : (writtenItems (d :: ds)).map String.toList = d.chars :: ds.map chars := by
    rw [writtenItems_eq_map, List.map_map]
    rfl
  rw [chars, written, String.toList_append, String.toList_append, String.toList_intercalate, texts,
    ← intercalate_append]
  simp

theorem chars_object_nil : (object []).chars = ['\x7b', '\x7d'] := rfl

theorem chars_object_cons (m : String × Document) (ms : List (String × Document))
    (rest : List Char) :
    (object (m :: ms)).chars ++ rest =
      '\x7b' :: (memberChars m ++ behind '\x7d' (ms.map memberChars) rest) := by
  have member : ∀ m : String × Document,
      (stringText m.1 ++ ":" ++ m.2.written).toList = memberChars m := by
    intro m
    rw [String.toList_append, String.toList_append, toList_stringText]
    simp [memberChars, chars]
  have texts : (writtenMembers (m :: ms)).map String.toList = (m :: ms).map memberChars := by
    rw [writtenMembers_eq_map, List.map_map]
    exact List.map_congr_left fun m _ => member m
  rw [chars, written, String.toList_append, String.toList_append, String.toList_intercalate, texts,
    List.map_cons, ← intercalate_append]
  simp

/-! ## Documents -/

/-- Whether a document is read back from its text, whatever stands behind its end. -/
structure Reads (d : Document) : Prop where
  /-- The text begins neither with a blank nor with the end of an array. -/
  head : ∃ c tail, d.chars = c :: tail ∧ isSpace c = false ∧ c ≠ ']'
  reads : ∀ fuel rest, d.chars.length ≤ fuel → EndsValue rest →
    readValue? fuel (d.chars ++ rest) = some (d.data, rest)

theorem Reads.skipSpace {d : Document} (h : Reads d) (rest : List Char) :
    skipSpace (d.chars ++ rest) = d.chars ++ rest := by
  obtain ⟨c, tail, hchars, hspace, -⟩ := h.head
  rw [hchars]
  exact skipSpace_of_head hspace _

theorem reads_of_isScalar {d : Document} (h : IsScalar d.chars d.data) : Reads d := by
  obtain ⟨c, tail, hchars, hspace, hc⟩ := h.head
  simp only [List.mem_cons, List.not_mem_nil, or_false, not_or] at hc
  obtain ⟨hclose, hquote, harray, hobject⟩ := hc
  refine ⟨⟨c, tail, hchars, hspace, hclose⟩, fun fuel rest hfuel hrest => ?_⟩
  have read := h.reads rest hrest
  rw [hchars] at read hfuel ⊢
  obtain ⟨fuel, rfl⟩ : ∃ n, fuel = n + 1 := ⟨fuel - 1, by rw [List.length_cons] at hfuel; omega⟩
  rw [List.cons_append] at read ⊢
  rw [readValue?, read]
  · exact fun _ he => hquote (List.cons.inj he).1
  · exact fun _ he => harray (List.cons.inj he).1
  · exact fun _ he => hobject (List.cons.inj he).1

theorem reads_text (s : String) : Reads (.text s) := by
  have hchars : (text s).chars = '"' :: (s.toList.flatMap escapeChar ++ ['"']) :=
    toList_stringText s
  refine ⟨⟨'"', _, hchars, by decide, by decide⟩, fun fuel rest hfuel _ => ?_⟩
  rw [hchars] at hfuel ⊢
  obtain ⟨fuel, rfl⟩ : ∃ n, fuel = n + 1 := ⟨fuel - 1, by rw [List.length_cons] at hfuel; omega⟩
  rw [List.cons_append, List.append_assoc, List.singleton_append, readValue?,
    readString?_written s.toList rest]
  show some (Data.text (String.ofList s.toList), rest) = _
  rw [String.ofList_toList]
  rfl

/-- The elements of an array are read up to its bracket. -/
theorem readItems?_behind {d : Document} {ds : List Document} (each : ∀ e ∈ d :: ds, Reads e)
    (fuel : Nat) (rest : List Char)
    (hfuel : (d.chars ++ behind ']' (ds.map chars) []).length ≤ fuel) :
    readItems? fuel (d.chars ++ behind ']' (ds.map chars) rest) =
      some (dataOfItems (d :: ds), rest) := by
  induction ds generalizing d fuel with
  | nil =>
    have hd := each d List.mem_cons_self
    simp only [List.map_nil, behind, List.length_append, List.length_singleton] at hfuel
    obtain ⟨fuel, rfl⟩ : ∃ n, fuel = n + 1 := ⟨fuel - 1, by omega⟩
    have read := hd.reads fuel (behind ']' [] rest) (by omega) (endsValue_behind (.inl rfl) _ _)
    rw [List.map_nil, readItems?, hd.skipSpace, read]
    rfl
  | cons e ds ih =>
    obtain ⟨hd, hrest⟩ := List.forall_mem_cons.mp each
    simp only [List.map_cons, behind, List.length_append, List.length_cons] at hfuel
    obtain ⟨fuel, rfl⟩ : ∃ n, fuel = n + 1 := ⟨fuel - 1, by omega⟩
    have read := hd.reads fuel (behind ']' ((e :: ds).map chars) rest) (by omega)
      (endsValue_behind (.inl rfl) _ _)
    have more := ih hrest fuel (by rw [List.length_append]; omega)
    rw [readItems?, hd.skipSpace, read]
    show (readItems? fuel (e.chars ++ behind ']' (ds.map chars) rest) >>= _) = _
    rw [more]
    rfl

/-- A member is read up to what stands behind it, which tells whether there are others. -/
theorem readMembers?_memberChars {name : String} {d : Document} (hd : Reads d) {fuel : Nat}
    (hfuel : d.chars.length ≤ fuel) {rest : List Char} (hrest : EndsValue rest) :
    readMembers? (fuel + 1) (memberChars (name, d) ++ rest) =
      match skipSpace rest with
      | '\x7d' :: rest => some ([(.text name, d.data)], rest)
      | ',' :: rest => do
        let (entries, rest) ← readMembers? fuel rest
        return ((.text name, d.data) :: entries, rest)
      | _ => none := by
  rw [memberChars_append, readMembers?, skipSpace_of_head (by decide)]
  show (readString? _ _ >>= _) = _
  rw [readString?_written, Option.bind_eq_bind, Option.bind_some]
  dsimp only
  rw [skipSpace_of_head (by decide)]
  show (readValue? fuel _ >>= _) = _
  rw [hd.skipSpace, hd.reads fuel rest hfuel hrest, Option.bind_eq_bind, Option.bind_some,
    String.ofList_toList]
  rfl

/-- The members of an object are read up to its brace. -/
theorem readMembers?_behind {m : String × Document} {ms : List (String × Document)}
    (each : ∀ m' ∈ m :: ms, Reads m'.2) (fuel : Nat) (rest : List Char)
    (hfuel : (memberChars m ++ behind '\x7d' (ms.map memberChars) []).length ≤ fuel) :
    readMembers? fuel (memberChars m ++ behind '\x7d' (ms.map memberChars) rest) =
      some (dataOfMembers (m :: ms), rest) := by
  -- on the members behind the first; each takes a character of its own off the fuel
  induction ms generalizing m fuel with
  | nil =>
    obtain ⟨name, d⟩ := m
    have hd : Reads d := each (name, d) List.mem_cons_self
    have long : d.chars.length ≤ (memberChars (name, d)).length := by simp [memberChars]; omega
    simp only [List.map_nil, behind, List.length_append, List.length_singleton] at hfuel
    obtain ⟨fuel, rfl⟩ : ∃ n, fuel = n + 1 := ⟨fuel - 1, by omega⟩
    rw [readMembers?_memberChars hd (by omega) (endsValue_behind (.inr rfl) _ _)]
    rfl
  | cons m' ms ih =>
    obtain ⟨name, d⟩ := m
    have hd : Reads d := each (name, d) List.mem_cons_self
    have hrest := (List.forall_mem_cons.mp each).2
    have long : d.chars.length ≤ (memberChars (name, d)).length := by simp [memberChars]; omega
    simp only [List.map_cons, behind, List.length_append, List.length_cons] at hfuel
    obtain ⟨fuel, rfl⟩ : ∃ n, fuel = n + 1 := ⟨fuel - 1, by omega⟩
    have more := ih hrest fuel (by rw [List.length_append]; omega)
    rw [readMembers?_memberChars hd (by omega) (endsValue_behind (.inr rfl) _ _)]
    show (readMembers? fuel (memberChars m' ++ behind '\x7d' (ms.map memberChars) rest) >>= _) = _
    rw [more]
    rfl

/-- **Every document is read back.** -/
theorem reads (d : Document) : Reads d := by
  -- on the document, with whatever ends a value behind it
  induction d using Document.induction with
  | null => exact reads_of_isScalar (isScalar_word "null" (by simp [data]))
  | bool b =>
    cases b with
    | true => exact reads_of_isScalar (isScalar_word "true" (by simp [data]))
    | false => exact reads_of_isScalar (isScalar_word "false" (by simp [data]))
  | int n => exact reads_of_isScalar (isScalar_int n)
  | double x => exact reads_of_isScalar (isScalar_double x)
  | text s => exact reads_text s
  | array items ih =>
    cases items with
    | nil =>
      refine ⟨⟨'[', _, chars_array_nil, by decide, by decide⟩, fun fuel rest hfuel _ => ?_⟩
      rw [chars_array_nil, List.length_cons] at hfuel
      obtain ⟨fuel, rfl⟩ : ∃ n, fuel = n + 1 := ⟨fuel - 1, by omega⟩
      rfl
    | cons d ds =>
      have hchars := chars_array_cons d ds
      have whole := hchars []
      rw [List.append_nil] at whole
      refine ⟨⟨'[', _, whole, by decide, by decide⟩, fun fuel rest hfuel _ => ?_⟩
      rw [whole, List.length_cons] at hfuel
      obtain ⟨fuel, rfl⟩ : ∃ n, fuel = n + 1 := ⟨fuel - 1, by omega⟩
      have read := readItems?_behind ih fuel rest (by omega)
      obtain ⟨c, tail, hc, hspace, hclose⟩ := (ih d List.mem_cons_self).head
      rw [hc, List.cons_append] at read
      rw [hchars, hc, List.cons_append, readValue?, skipSpace_of_head hspace]
      split
      next he => exact absurd (List.cons.inj he).1 hclose
      next =>
        rw [read]
        rfl
  | object members ih =>
    cases members with
    | nil =>
      refine ⟨⟨'\x7b', _, chars_object_nil, by decide, by decide⟩, fun fuel rest hfuel _ => ?_⟩
      rw [chars_object_nil, List.length_cons] at hfuel
      obtain ⟨fuel, rfl⟩ : ∃ n, fuel = n + 1 := ⟨fuel - 1, by omega⟩
      rfl
    | cons m ms =>
      have hchars := chars_object_cons m ms
      have whole := hchars []
      rw [List.append_nil] at whole
      refine ⟨⟨'\x7b', _, whole, by decide, by decide⟩, fun fuel rest hfuel _ => ?_⟩
      rw [whole, List.length_cons] at hfuel
      obtain ⟨fuel, rfl⟩ : ∃ n, fuel = n + 1 := ⟨fuel - 1, by omega⟩
      have read := readMembers?_behind ih fuel rest (by omega)
      rw [memberChars, List.cons_append] at read
      rw [hchars, memberChars, List.cons_append, readValue?, skipSpace_of_head (by decide)]
      show (readMembers? fuel _ >>= _) = _
      rw [read]
      rfl

/-- A whole text is read. -/
theorem read?_written (d : Document) : read? d.written = some d.data := by
  have hread := (reads d).reads (d.chars.length + 1) [] (by omega) nofun
  have hskip := (reads d).skipSpace []
  rw [List.append_nil] at hread hskip
  have text : d.written.toList = d.chars := rfl
  simp only [read?, text, hskip, hread]
  rfl

/-! ## Different documents have different texts -/

/-- Where a document ends can be told from the text. -/
theorem append_inj {d e : Document} {rest rest' : List Char} (hrest : EndsValue rest)
    (hrest' : EndsValue rest') (h : d.chars ++ rest = e.chars ++ rest') :
    d.chars = e.chars ∧ rest = rest' := by
  have hd := (reads d).reads (d.chars.length + e.chars.length) rest (by omega) hrest
  have he := (reads e).reads (d.chars.length + e.chars.length) rest' (by omega) hrest'
  rw [h, he] at hd
  obtain rfl : rest' = rest := (Prod.mk.inj (Option.some.inj hd)).2
  exact ⟨List.append_cancel_right h, rfl⟩

/-- What stands between commas can be told from the text, if each part can. -/
theorem behind_inj {α : Type} {part : α → List Char} {close : Char}
    (hclose : close = ']' ∨ close = '\x7d') {as bs : List α}
    (each : ∀ a ∈ as, ∀ b rest rest', EndsValue rest → EndsValue rest' →
      part a ++ rest = part b ++ rest' → a = b ∧ rest = rest')
    (h : behind close (as.map part) [] = behind close (bs.map part) []) : as = bs := by
  have comma : close ≠ ',' := by rcases hclose with rfl | rfl <;> decide
  induction as generalizing bs with
  | nil =>
    cases bs with
    | nil => rfl
    | cons b bs => exact absurd (List.cons.inj h).1 comma
  | cons a as ih =>
    obtain ⟨ha, has⟩ := List.forall_mem_cons.mp each
    cases bs with
    | nil => exact absurd (List.cons.inj h).1.symm comma
    | cons b bs =>
      obtain ⟨rfl, hrest⟩ := ha b _ _ (endsValue_behind hclose _ _) (endsValue_behind hclose _ _)
        (List.cons.inj h).2
      rw [ih has hrest]

/-- A member can be told from the text if what stands under its name can. -/
theorem memberChars_inj {m m' : String × Document} {rest rest' : List Char}
    (hvalue : m.2.chars = m'.2.chars → m.2 = m'.2) (hrest : EndsValue rest)
    (hrest' : EndsValue rest') (h : memberChars m ++ rest = memberChars m' ++ rest') :
    m = m' ∧ rest = rest' := by
  obtain ⟨name, d⟩ := m
  obtain ⟨name', d'⟩ := m'
  rw [memberChars_append, memberChars_append] at h
  have h := (List.cons.inj h).2
  have read := readString?_written name.toList (':' :: (d.chars ++ rest))
  rw [h, readString?_written] at read
  obtain ⟨hname, hbehind⟩ := Prod.mk.inj (Option.some.inj read)
  obtain ⟨hchars, rfl⟩ := append_inj hrest hrest' (List.cons.inj hbehind).2.symm
  exact ⟨Prod.ext (String.toList_inj.mp hname.symm) (hvalue hchars), rfl⟩

theorem chars_object_nil_ne (m : String × Document) (ms : List (String × Document)) :
    (object []).chars ≠ (object (m :: ms)).chars := by
  intro h
  have hm := chars_object_cons m ms []
  rw [List.append_nil, ← h, chars_object_nil] at hm
  have hhead := (List.cons.inj (List.cons.inj hm).2).1
  exact absurd hhead (by decide)

theorem data_eq_of_chars {d e : Document} (h : d.chars = e.chars) : d.data = e.data := by
  have read := read?_written d
  rw [String.toList_inj.mp h, read?_written] at read
  exact (Option.some.inj read).symm

theorem eq_of_chars {d e : Document} (h : d.chars = e.chars) : d = e := by
  -- the data tell the kind of a document, so only documents of one kind are compared
  have hdata := data_eq_of_chars h
  induction d using Document.induction generalizing e with
  | null => cases e <;> cases hdata; rfl
  | bool b => cases e <;> cases hdata; rfl
  | int n => cases e <;> cases hdata; rfl
  | double x => cases e <;> cases hdata; rfl
  | text s => cases e <;> cases hdata; rfl
  | array items ih =>
    cases e with
    | array items' =>
      have each : ∀ d ∈ items, ∀ e rest rest', EndsValue rest → EndsValue rest' →
          d.chars ++ rest = e.chars ++ rest' → d = e ∧ rest = rest' := by
        intro d hd e rest rest' hrest hrest' h
        obtain ⟨hchars, rfl⟩ := append_inj hrest hrest' h
        exact ⟨ih d hd hchars (data_eq_of_chars hchars), rfl⟩
      cases items with
      | nil =>
        cases items' with
        | nil => rfl
        | cons e es => cases hdata
      | cons d ds =>
        cases items' with
        | nil => cases hdata
        | cons e es =>
          have hd := chars_array_cons d ds []
          rw [List.append_nil, h, ← List.append_nil (chars _), chars_array_cons] at hd
          have hbehind : behind ']' ((d :: ds).map chars) [] =
              behind ']' ((e :: es).map chars) [] :=
            congrArg (',' :: ·) (List.cons.inj hd).2.symm
          rw [behind_inj (.inl rfl) each hbehind]
    | _ => cases hdata
  | object members ih =>
    cases e with
    | object members' =>
      have each : ∀ m ∈ members, ∀ m' rest rest', EndsValue rest → EndsValue rest' →
          memberChars m ++ rest = memberChars m' ++ rest' → m = m' ∧ rest = rest' :=
        fun m hm m' rest rest' =>
          memberChars_inj fun hchars => ih m hm hchars (data_eq_of_chars hchars)
      cases members with
      | nil =>
        cases members' with
        | nil => rfl
        | cons m ms => exact absurd h (chars_object_nil_ne m ms)
      | cons m ms =>
        cases members' with
        | nil => exact absurd h.symm (chars_object_nil_ne m ms)
        | cons m' ms' =>
          have hm := chars_object_cons m ms []
          rw [List.append_nil, h, ← List.append_nil (chars _), chars_object_cons] at hm
          have hbehind : behind '\x7d' ((m :: ms).map memberChars) [] =
              behind '\x7d' ((m' :: ms').map memberChars) [] :=
            congrArg (',' :: ·) (List.cons.inj hm).2.symm
          rw [behind_inj (.inr rfl) each hbehind]
    | _ => cases hdata

/-- **Different documents have different texts.** -/
theorem written_injective : Function.Injective written := fun _ _ h =>
  eq_of_chars (congrArg String.toList h)

end Document

end SqlScribe.Json
