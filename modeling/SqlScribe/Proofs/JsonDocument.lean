import Mathlib.Data.String.Basic
import SqlScribe.Proofs.SortedOrder
import SqlScribe.Value.Conversion

/-!
# JSON documents

What is written as JSON is a document: data without the distinctions that JSON does not make, with
the members of every object in the order in which they are written and under the names that are
written for their keys. Data that can be written become a document, and what is written is the text
of this document.

A document is ordered if the names of every object ascend. Whether the document of some data is
ordered can be told from the data: their keys are put into order as what they are, so the names
ascend if the keys are texts, but numbers have another order than their numerals.
-/

namespace SqlScribe.Json

/-- A JSON document with the members of its objects in a certain order. -/
inductive Document where
  | null
  | bool (b : Bool)
  | int (n : Int)
  | double (x : Double)
  | text (s : String)
  | array (items : List Document)
  | object (members : List (String × Document))

namespace Document

mutual

/-- The text of a document. -/
def written : Document → String
  | .null => "null"
  | .bool b => if b then "true" else "false"
  | .int n => Text.intText n
  | .double x => doubleText x
  | .text s => stringText s
  | .array items => "[" ++ ",".intercalate (writtenItems items) ++ "]"
  | .object members => "\x7b" ++ ",".intercalate (writtenMembers members) ++ "\x7d"

/-- The texts of a list of documents. -/
def writtenItems : List Document → List String
  | [] => []
  | d :: rest => written d :: writtenItems rest

/-- The texts of the members of an object. -/
def writtenMembers : List (String × Document) → List String
  | [] => []
  | m :: rest => writtenMember m :: writtenMembers rest

/-- The text of a member of an object. -/
def writtenMember : String × Document → String
  | (name, d) => stringText name ++ ":" ++ written d

end

mutual

/-- The data that a document is read as. -/
def data : Document → Data
  | .null => .null
  | .bool b => .bool b
  | .int n => .int n
  | .double x => .float x
  | .text s => .text s
  | .array items => .list (dataOfItems items)
  | .object members => Data.dictOf (dataOfMembers members)

/-- The data of a list of documents. -/
def dataOfItems : List Document → List Data
  | [] => []
  | d :: rest => data d :: dataOfItems rest

/-- The entries that the members of an object are read as. -/
def dataOfMembers : List (String × Document) → List (Data × Data)
  | [] => []
  | m :: rest => dataOfMember m :: dataOfMembers rest

/-- The entry that a member of an object is read as. -/
def dataOfMember : String × Document → Data × Data
  | (name, d) => (.text name, data d)

end

mutual

/-- Whether the names of every object ascend. -/
def Ordered : Document → Prop
  | .array items => OrderedItems items
  | .object members => (members.map (·.1)).Pairwise (· < ·) ∧ OrderedMembers members
  | _ => True

/-- Whether all of a list of documents are ordered. -/
def OrderedItems : List Document → Prop
  | [] => True
  | d :: rest => Ordered d ∧ OrderedItems rest

/-- Whether what stands under the names is ordered. -/
def OrderedMembers : List (String × Document) → Prop
  | [] => True
  | m :: rest => OrderedMember m ∧ OrderedMembers rest

/-- Whether what stands under a name is ordered. -/
def OrderedMember : String × Document → Prop
  | (_, d) => Ordered d

end

theorem writtenItems_eq_map (items : List Document) : writtenItems items = items.map written := by
  induction items with
  | nil => rfl
  | cons d rest ih => rw [writtenItems, ih, List.map_cons]

theorem writtenMembers_eq_map (members : List (String × Document)) :
    writtenMembers members = members.map fun m => stringText m.1 ++ ":" ++ m.2.written := by
  induction members with
  | nil => rfl
  | cons m rest ih =>
    obtain ⟨name, d⟩ := m
    rw [writtenMembers, ih, writtenMember, List.map_cons]

theorem dataOfItems_eq_map (items : List Document) : dataOfItems items = items.map data := by
  induction items with
  | nil => rfl
  | cons d rest ih => rw [dataOfItems, ih, List.map_cons]

theorem dataOfMembers_eq_map (members : List (String × Document)) :
    dataOfMembers members = members.map fun m => (.text m.1, m.2.data) := by
  induction members with
  | nil => rfl
  | cons m rest ih =>
    obtain ⟨name, d⟩ := m
    rw [dataOfMembers, ih, dataOfMember, List.map_cons]

theorem orderedItems_iff {items : List Document} : OrderedItems items ↔ ∀ d ∈ items, d.Ordered := by
  induction items with
  | nil => exact iff_of_true trivial (List.forall_mem_nil _)
  | cons d rest ih => rw [OrderedItems, ih, List.forall_mem_cons]

theorem orderedMembers_iff {members : List (String × Document)} :
    OrderedMembers members ↔ ∀ m ∈ members, m.2.Ordered := by
  induction members with
  | nil => exact iff_of_true trivial (List.forall_mem_nil _)
  | cons m rest ih =>
    obtain ⟨name, d⟩ := m
    rw [OrderedMembers, ih, OrderedMember, List.forall_mem_cons]

/-- Induction on documents, with what holds of all parts of an array or an object. -/
theorem induction {P : Document → Prop} (null : P .null) (bool : ∀ b, P (.bool b))
    (int : ∀ n, P (.int n)) (double : ∀ x, P (.double x)) (text : ∀ s, P (.text s))
    (array : ∀ items, (∀ d ∈ items, P d) → P (.array items))
    (object : ∀ members : List (String × Document), (∀ m ∈ members, P m.2) → P (.object members))
    (d : Document) : P d := by
  refine @Document.rec P (fun items => ∀ d ∈ items, P d) (fun members => ∀ m ∈ members, P m.2)
    (fun m => P m.2) null bool int double text array object (List.forall_mem_nil _) ?_
    (List.forall_mem_nil _) ?_ ?_ d
  · exact fun d rest hd hrest => List.forall_mem_cons.mpr ⟨hd, hrest⟩
  · exact fun m rest hm hrest => List.forall_mem_cons.mpr ⟨hm, hrest⟩
  · exact fun name d hd => hd

end Document

/-! ## What is written for the members of an object -/

/-- The names of the members of an object, in the order in which they are written. -/
def memberNames (entries : List (Data × Data)) : Except Fault (List String) := do
  let members ← sorted Member.less (writeEntries entries)
  members.mapM fun m => keyText m.key

mutual

/-- Whether the names of every object ascend in the order in which its members are written. -/
def KeysAscend : Data → Prop
  | .list items | .tuple items => KeysAscendEach items
  | .dict entries =>
    (∀ names, memberNames entries = .ok names → names.Pairwise (· < ·)) ∧ KeysAscendEntries entries
  | _ => True

/-- Whether they ascend in each of a list of data. -/
def KeysAscendEach : List Data → Prop
  | [] => True
  | d :: rest => KeysAscend d ∧ KeysAscendEach rest

/-- Whether they ascend in what stands under the keys. -/
def KeysAscendEntries : List (Data × Data) → Prop
  | [] => True
  | e :: rest => KeysAscendEntry e ∧ KeysAscendEntries rest

/-- Whether they ascend in what stands under a key. -/
def KeysAscendEntry : Data × Data → Prop
  | (_, d) => KeysAscend d

end

theorem keysAscendEach_iff {items : List Data} :
    KeysAscendEach items ↔ ∀ d ∈ items, KeysAscend d := by
  induction items with
  | nil => exact iff_of_true trivial (List.forall_mem_nil _)
  | cons d rest ih => rw [KeysAscendEach, ih, List.forall_mem_cons]

theorem keysAscendEntries_iff {entries : List (Data × Data)} :
    KeysAscendEntries entries ↔ ∀ e ∈ entries, KeysAscend e.2 := by
  induction entries with
  | nil => exact iff_of_true trivial (List.forall_mem_nil _)
  | cons e rest ih =>
    obtain ⟨key, d⟩ := e
    rw [KeysAscendEntries, ih, KeysAscendEntry, List.forall_mem_cons]

theorem writeEach_eq_map (items : List Data) : writeEach items = items.map write := by
  induction items with
  | nil => rfl
  | cons d rest ih => rw [writeEach, ih, List.map_cons]

theorem writeEntries_eq_map (entries : List (Data × Data)) :
    writeEntries entries = entries.map fun e => ⟨e.1, e.2, write e.2⟩ := by
  induction entries with
  | nil => rfl
  | cons e rest ih =>
    obtain ⟨key, d⟩ := e
    rw [writeEntries, ih, writeEntry, List.map_cons]

/-- Induction on data, with what holds of everything inside sequences and mappings. -/
theorem dataInduction {P : Data → Prop} (list : ∀ items, (∀ d ∈ items, P d) → P (.list items))
    (tuple : ∀ items, (∀ d ∈ items, P d) → P (.tuple items))
    (dict : ∀ entries : List (Data × Data), (∀ e ∈ entries, P e.2) → P (.dict entries))
    (scalar : ∀ d, (∀ items, d ≠ .list items) → (∀ items, d ≠ .tuple items) →
      (∀ entries, d ≠ .dict entries) → P d) (d : Data) : P d := by
  match d with
  | .list items => exact list items fun d hd => dataInduction list tuple dict scalar d
  | .tuple items => exact tuple items fun d hd => dataInduction list tuple dict scalar d
  | .dict entries => exact dict entries fun e he => dataInduction list tuple dict scalar e.2
  | .null | .bool _ | .int _ | .float _ | .text _ | .bytes .. | .decimal _ | .uuid _ | .date _
  | .dateTime _ | .time _ | .set _ | .label _ | .textLabel _ | .intLabel _ | .bare _ | .value _
  | .record .. => exact scalar _ nofun nofun nofun
termination_by sizeOf d
decreasing_by
  · have := List.sizeOf_lt_of_mem hd
    simp only [Data.list.sizeOf_spec]
    omega
  · have := List.sizeOf_lt_of_mem hd
    simp only [Data.tuple.sizeOf_spec]
    omega
  · have := List.sizeOf_lt_of_mem he
    obtain ⟨key, d⟩ := e
    simp only [Data.dict.sizeOf_spec, Prod.mk.sizeOf_spec] at this ⊢
    omega

/-! ## Data that can be written -/

/-- If each of a list of data becomes a document, the list does. -/
theorem exists_items {items : List Data} {texts : List String}
    (each : ∀ d ∈ items, ∀ s, write d = .ok s →
      ∃ D : Document, s = D.written ∧ (D.Ordered ↔ KeysAscend d))
    (h : itemsText (items.map write) = .ok texts) :
    ∃ Ds : List Document, texts = Ds.map Document.written ∧
      ((∀ D ∈ Ds, D.Ordered) ↔ ∀ d ∈ items, KeysAscend d) := by
  induction items generalizing texts with
  | nil =>
    cases h
    exact ⟨[], rfl, iff_of_true (List.forall_mem_nil _) (List.forall_mem_nil _)⟩
  | cons d rest ih =>
    obtain ⟨hd, hrest⟩ := List.forall_mem_cons.mp each
    obtain ⟨s, hs, h⟩ := bind_eq_ok.mp h
    obtain ⟨texts', htexts, h⟩ := bind_eq_ok.mp h
    cases h
    obtain ⟨D, rfl, hD⟩ := hd s hs
    obtain ⟨Ds, rfl, hDs⟩ := ih hrest htexts
    refine ⟨D :: Ds, rfl, ?_⟩
    rw [List.forall_mem_cons, List.forall_mem_cons, hD, hDs]

/-- A sequence of either kind becomes an array. -/
theorem exists_array {items : List Data} {s : String}
    (each : ∀ d ∈ items, ∀ s, write d = .ok s →
      ∃ D : Document, s = D.written ∧ (D.Ordered ↔ KeysAscend d))
    (h : write (.list items) = .ok s) :
    ∃ D : Document, s = D.written ∧ (D.Ordered ↔ KeysAscendEach items) := by
  obtain ⟨texts, htexts, h⟩ := bind_eq_ok.mp h
  cases h
  rw [writeEach_eq_map] at htexts
  obtain ⟨Ds, rfl, hDs⟩ := exists_items each htexts
  refine ⟨.array Ds, ?_, ?_⟩
  · rw [Document.written, Document.writtenItems_eq_map]
  · rw [Document.Ordered, Document.orderedItems_iff, keysAscendEach_iff, hDs]

/-- If what stands under each key becomes a document, the members of an object do. -/
theorem exists_members {members : List Member} {texts : List String}
    (each : ∀ m ∈ members, ∀ s, m.written = .ok s →
      ∃ D : Document, s = D.written ∧ (D.Ordered ↔ KeysAscend m.value))
    (h : membersText members = .ok texts) :
    ∃ ps : List (String × Document), texts = Document.writtenMembers ps ∧
      (members.mapM fun m => keyText m.key) = .ok (ps.map (·.1)) ∧
      ((∀ p ∈ ps, p.2.Ordered) ↔ ∀ m ∈ members, KeysAscend m.value) := by
  induction members generalizing texts with
  | nil =>
    cases h
    exact ⟨[], rfl, rfl, iff_of_true (List.forall_mem_nil _) (List.forall_mem_nil _)⟩
  | cons m rest ih =>
    obtain ⟨hm, hrest⟩ := List.forall_mem_cons.mp each
    obtain ⟨name, hname, h⟩ := bind_eq_ok.mp h
    obtain ⟨s, hs, h⟩ := bind_eq_ok.mp h
    obtain ⟨texts', htexts, h⟩ := bind_eq_ok.mp h
    cases h
    obtain ⟨D, rfl, hD⟩ := hm s hs
    obtain ⟨ps, rfl, hnames, hps⟩ := ih hrest htexts
    refine ⟨(name, D) :: ps, rfl, ?_, ?_⟩
    · rw [List.mapM_cons, hname, hnames]
      rfl
    · rw [List.forall_mem_cons, List.forall_mem_cons, hD, hps]

/-- **What is written is the text of a document**, and it can be told from the data whether this
document is ordered. -/
theorem exists_document {d : Data} {s : String} (h : write d = .ok s) :
    ∃ D : Document, s = D.written ∧ (D.Ordered ↔ KeysAscend d) := by
  -- on the data; the members of an object are sorted before they are written
  induction d using dataInduction generalizing s with
  | list items ih => exact exists_array (fun d hd s => ih d hd) h
  | tuple items ih => exact exists_array (fun d hd s => ih d hd) h
  | dict entries ih =>
    obtain ⟨members, hmembers, h⟩ := bind_eq_ok.mp h
    obtain ⟨texts, htexts, h⟩ := bind_eq_ok.mp h
    cases h
    have hperm := sorted_perm hmembers
    rw [writeEntries_eq_map] at hperm
    have each : ∀ m ∈ members, ∃ e ∈ entries, m = ⟨e.1, e.2, write e.2⟩ := by
      intro m hm
      obtain ⟨e, he, rfl⟩ := List.mem_map.mp (hperm.mem_iff.mp hm)
      exact ⟨e, he, rfl⟩
    have inside : ∀ m ∈ members, ∀ s, m.written = .ok s →
        ∃ D : Document, s = D.written ∧ (D.Ordered ↔ KeysAscend m.value) := by
      intro m hm s hs
      obtain ⟨e, he, rfl⟩ := each m hm
      exact ih e he hs
    obtain ⟨ps, rfl, hnames, hps⟩ := exists_members inside htexts
    refine ⟨.object ps, rfl, ?_⟩
    -- the names in the document are those that were written
    have names : memberNames entries = .ok (ps.map (·.1)) :=
      bind_eq_ok.mpr ⟨members, hmembers, hnames⟩
    rw [Document.Ordered, Document.orderedMembers_iff, KeysAscend, keysAscendEntries_iff, hps]
    refine and_congr ⟨fun h names' hnames' => ?_, fun h => h _ names⟩
      ⟨fun h e he => ?_, fun h m hm => ?_⟩
    · obtain rfl := Except.ok.inj (names.symm.trans hnames')
      exact h
    -- sorting keeps the members
    · exact h ⟨e.1, e.2, write e.2⟩ (hperm.mem_iff.mpr (List.mem_map_of_mem he))
    · obtain ⟨e, he, rfl⟩ := each m hm
      exact h e he
  | scalar d hlist htuple hdict =>
    cases d with
    | null => exact ⟨.null, (Except.ok.inj h).symm, iff_of_true trivial trivial⟩
    | bool b => exact ⟨.bool b, (Except.ok.inj h).symm, iff_of_true trivial trivial⟩
    | int n => exact ⟨.int n, (Except.ok.inj h).symm, iff_of_true trivial trivial⟩
    | intLabel n => exact ⟨.int n, (Except.ok.inj h).symm, iff_of_true trivial trivial⟩
    | float x => exact ⟨.double x, (Except.ok.inj h).symm, iff_of_true trivial trivial⟩
    | text s => exact ⟨.text s, (Except.ok.inj h).symm, iff_of_true trivial trivial⟩
    | textLabel s => exact ⟨.text s, (Except.ok.inj h).symm, iff_of_true trivial trivial⟩
    | list items => exact absurd rfl (hlist items)
    | tuple items => exact absurd rfl (htuple items)
    | dict entries => exact absurd rfl (hdict entries)
    | _ => cases h

end SqlScribe.Json
