import SqlScribe.Proofs.JsonReading

/-!
# Canonical documents

Data are plain if they are made of nulls, truth values, numbers and texts, in sequences and in
mappings from texts. The document of plain data has the members of every object in the order of
their names. It is the document that is written, and two plain data have one document if they are
equal up to the order of mappings and to the kind of sequences.

What is read is plain, and an ordered document is the document of what it is read as. So a text is
found again when what was read from it is written if it is that of an ordered document, and only
then.
-/

namespace SqlScribe

namespace Data

mutual

/-- The data with a list in place of every tuple. -/
def asLists : Data → Data
  | .list items | .tuple items => .list (asListsEach items)
  | .dict entries => .dict (asListsEntries entries)
  | d => d

/-- Lists in place of the tuples in each of a list of data. -/
def asListsEach : List Data → List Data
  | [] => []
  | d :: rest => asLists d :: asListsEach rest

/-- Lists in place of the tuples in what stands under the keys. -/
def asListsEntries : List (Data × Data) → List (Data × Data)
  | [] => []
  | e :: rest => asListsEntry e :: asListsEntries rest

/-- Lists in place of the tuples in what stands under a key. -/
def asListsEntry : Data × Data → Data × Data
  | (key, d) => (key, asLists d)

end

mutual

/-- Whether two data differ only in the order of the entries of mappings, at any depth. A truth
value is no number here. -/
def EqUpToOrder : Data → Data → Prop
  | .list items, d => ∃ items', d = .list items' ∧ EqUpToOrderEach items items'
  | .tuple items, d => ∃ items', d = .tuple items' ∧ EqUpToOrderEach items items'
  | .dict entries, d =>
    ∃ entries', d = .dict entries' ∧ entries.length = entries'.length ∧
      AreEntriesOf entries entries'
  | d, d' => d = d'
termination_by structural d => d

/-- Whether the data of two lists differ only in this, place by place. -/
def EqUpToOrderEach : List Data → List Data → Prop
  | [], items => items = []
  | d :: rest, items => ∃ d' rest', items = d' :: rest' ∧ EqUpToOrder d d' ∧
      EqUpToOrderEach rest rest'

/-- Whether all entries are entries of another mapping. -/
def AreEntriesOf : List (Data × Data) → List (Data × Data) → Prop
  | [], _ => True
  | e :: rest, entries => (∃ e' ∈ entries, EntryEqUpToOrder e e') ∧ AreEntriesOf rest entries

/-- Whether two entries have one key and differ only in this in what stands under it. -/
def EntryEqUpToOrder : Data × Data → Data × Data → Prop
  | (key, d), e => key = e.1 ∧ EqUpToOrder d e.2

end

theorem asListsEach_eq_map (items : List Data) : asListsEach items = items.map asLists := by
  induction items with
  | nil => rfl
  | cons d rest ih => rw [asListsEach, ih, List.map_cons]

theorem asListsEntries_eq_map (entries : List (Data × Data)) :
    asListsEntries entries = entries.map fun e => (e.1, e.2.asLists) := by
  induction entries with
  | nil => rfl
  | cons e rest ih =>
    obtain ⟨key, d⟩ := e
    rw [asListsEntries, ih, asListsEntry, List.map_cons]

theorem areEntriesOf_iff {entries entries' : List (Data × Data)} :
    AreEntriesOf entries entries' ↔
      ∀ e ∈ entries, ∃ e' ∈ entries', e.1 = e'.1 ∧ EqUpToOrder e.2 e'.2 := by
  induction entries with
  | nil => exact iff_of_true trivial (List.forall_mem_nil _)
  | cons e rest ih =>
    obtain ⟨key, d⟩ := e
    rw [AreEntriesOf, ih, List.forall_mem_cons]
    rfl

end Data

namespace Json

mutual

/-- Whether data are made of nulls, truth values, numbers and texts, in sequences and in mappings
from texts. -/
def IsPlain : Data → Prop
  | .null | .bool _ | .int _ | .float _ | .text _ => True
  | .list items | .tuple items => ArePlain items
  | .dict entries => EntriesArePlain entries ∧ (entries.map (·.1)).Nodup
  | _ => False

/-- Whether all of a list of data are plain. -/
def ArePlain : List Data → Prop
  | [] => True
  | d :: rest => IsPlain d ∧ ArePlain rest

/-- Whether plain data stand under texts. -/
def EntriesArePlain : List (Data × Data) → Prop
  | [] => True
  | e :: rest => EntryIsPlain e ∧ EntriesArePlain rest

/-- Whether plain data stand under a text. -/
def EntryIsPlain : Data × Data → Prop
  | (key, d) => (∃ name, key = .text name) ∧ IsPlain d

end

/-- The name that a text is as a key. -/
def nameOfKey (key : Data) : String := key.asText?.getD ""

/-- The order of members by their names. -/
def nameAtMost (m m' : String × Document) : Bool := m.1 ≤ m'.1

mutual

/-- The document of plain data. -/
def documentOf : Data → Document
  | .bool b => .bool b
  | .int n => .int n
  | .float x => .double x
  | .text s => .text s
  | .list items | .tuple items => .array (documentsOf items)
  | .dict entries => .object ((membersOf entries).mergeSort nameAtMost)
  | _ => .null

/-- The documents of a list of data. -/
def documentsOf : List Data → List Document
  | [] => []
  | d :: rest => documentOf d :: documentsOf rest

/-- The members that the entries of a mapping become. -/
def membersOf : List (Data × Data) → List (String × Document)
  | [] => []
  | e :: rest => memberOf e :: membersOf rest

/-- The member that an entry of a mapping becomes. -/
def memberOf : Data × Data → String × Document
  | (key, d) => (nameOfKey key, documentOf d)

end

theorem arePlain_iff {items : List Data} : ArePlain items ↔ ∀ d ∈ items, IsPlain d := by
  induction items with
  | nil => exact iff_of_true trivial (List.forall_mem_nil _)
  | cons d rest ih => rw [ArePlain, ih, List.forall_mem_cons]

theorem entriesArePlain_iff {entries : List (Data × Data)} :
    EntriesArePlain entries ↔ ∀ e ∈ entries, (∃ name, e.1 = .text name) ∧ IsPlain e.2 := by
  induction entries with
  | nil => exact iff_of_true trivial (List.forall_mem_nil _)
  | cons e rest ih =>
    obtain ⟨key, d⟩ := e
    rw [EntriesArePlain, ih, List.forall_mem_cons]
    rfl

theorem documentsOf_eq_map (items : List Data) : documentsOf items = items.map documentOf := by
  induction items with
  | nil => rfl
  | cons d rest ih => rw [documentsOf, ih, List.map_cons]

theorem membersOf_eq_map (entries : List (Data × Data)) :
    membersOf entries = entries.map fun e => (nameOfKey e.1, documentOf e.2) := by
  induction entries with
  | nil => rfl
  | cons e rest ih =>
    obtain ⟨key, d⟩ := e
    rw [membersOf, ih, memberOf, List.map_cons]

/-! ## The members of an object in order -/

section

variable {entries : List (Data × Data)} (hkeys : ∀ e ∈ entries, ∃ name, e.1 = .text name)
  (hnodup : (entries.map (·.1)).Nodup)

include hkeys in
theorem nameOfKey_inj {e e' : Data × Data} (he : e ∈ entries) (he' : e' ∈ entries)
    (h : nameOfKey e.1 = nameOfKey e'.1) : e.1 = e'.1 := by
  obtain ⟨name, hname⟩ := hkeys e he
  obtain ⟨name', hname'⟩ := hkeys e' he'
  rw [hname, hname'] at h ⊢
  exact congrArg Data.text h

include hkeys hnodup

/-- Different keys have different names. -/
theorem nodup_names : (entries.map fun e => nameOfKey e.1).Nodup := by
  have differ : entries.Pairwise fun e e' => e.1 ≠ e'.1 := List.pairwise_map.mp hnodup
  refine List.pairwise_map.mpr (differ.imp_of_mem ?_)
  intro e e' he he' hne h
  exact hne (nameOfKey_inj hkeys he he' h)

/-- The members are compared by their names. -/
theorem compared_writeEntries :
    (writeEntries entries).Pairwise (Sorting.Compared Member.less fun m => nameOfKey m.key) := by
  have differ : entries.Pairwise fun e e' => e.1 ≠ e'.1 := List.pairwise_map.mp hnodup
  -- two entries differ in their keys, so the values are never compared
  have less : ∀ {name name' : String} {d d' : Data} {w w' : Except Fault String}, name ≠ name' →
      Member.less ⟨.text name, d, w⟩ ⟨.text name', d', w'⟩ = .ok (decide (name < name')) := by
    intro name name' d d' w w' hne
    have unlike : (Data.text name).same (.text name') = false := by
      simpa [Data.same, Data.sameScalar?, Data.number?, Data.asInt?, Data.asText?] using hne
    have order : (Data.text name).compares .less (.text name') =
        .ok (Comparison.less.holds (compare name name')) := rfl
    have lower : Comparison.less.holds (compare name name') = decide (name < name') := by
      rw [Bool.eq_iff_iff, decide_eq_true_iff]
      exact beq_iff_eq.trans compare_lt_iff_lt
    unfold Member.less Data.entryLess
    rw [unlike, order, lower]
    rfl
  rw [writeEntries_eq_map, List.pairwise_map]
  refine differ.imp_of_mem ?_
  intro e e' he he' hne
  obtain ⟨name, hname⟩ := hkeys e he
  obtain ⟨name', hname'⟩ := hkeys e' he'
  rw [hname, hname'] at hne ⊢
  have differ : name ≠ name' := fun h => hne (congrArg Data.text h)
  exact ⟨less differ, less differ.symm⟩

end

theorem nameAtMost_iff {m m' : String × Document} : nameAtMost m m' = true ↔ m.1 ≤ m'.1 :=
  decide_eq_true_iff

/-- Different members that are put in order are the same if they were. -/
theorem mergeSort_eq_iff {ms ms' : List (String × Document)} (hnodup : (ms.map (·.1)).Nodup) :
    ms.mergeSort nameAtMost = ms'.mergeSort nameAtMost ↔ ms.Perm ms' := by
  have total : ∀ m m' : String × Document, (nameAtMost m m' || nameAtMost m' m) = true := by
    intro m m'
    rw [Bool.or_eq_true, nameAtMost_iff, nameAtMost_iff]
    exact le_total m.1 m'.1
  have trans : ∀ m m' m'' : String × Document, nameAtMost m m' = true → nameAtMost m' m'' = true →
      nameAtMost m m'' = true := by
    intro m m' m'' h h'
    rw [nameAtMost_iff] at h h' ⊢
    exact h.trans h'
  have same := List.mergeSort_perm ms nameAtMost
  have same' := List.mergeSort_perm ms' nameAtMost
  constructor
  · intro h
    exact same.symm.trans (h ▸ same')
  · intro h
    -- two lists in order with the same members are equal, as no name stands twice
    refine List.Perm.eq_of_pairwise ?_ (List.pairwise_mergeSort trans total ms)
      (List.pairwise_mergeSort trans total ms') (same.trans (h.trans same'.symm))
    intro m m' hm hm' hle hge
    have names := le_antisymm (nameAtMost_iff.mp hle) (nameAtMost_iff.mp hge)
    exact List.inj_on_of_nodup_map hnodup (same.mem_iff.mp hm)
      (h.mem_iff.mpr (same'.mem_iff.mp hm')) names

/-- Members whose names ascend are in order. -/
theorem mergeSort_of_pairwise {ms : List (String × Document)}
    (h : (ms.map (·.1)).Pairwise (· < ·)) : ms.mergeSort nameAtMost = ms :=
  List.mergeSort_of_pairwise ((List.pairwise_map.mp h).imp fun hlt => nameAtMost_iff.mpr hlt.le)

/-! ## Writing plain data -/

theorem itemsText_of_write {items : List Data}
    (h : ∀ d ∈ items, write d = .ok (documentOf d).written) :
    itemsText (writeEach items) = .ok (Document.writtenItems (documentsOf items)) := by
  induction items with
  | nil => rfl
  | cons d rest ih =>
    obtain ⟨hd, hrest⟩ := List.forall_mem_cons.mp h
    rw [writeEach, itemsText, hd, ih hrest]
    rfl

theorem membersText_of_write {members : List Member}
    (h : ∀ m ∈ members, (∃ name, m.key = .text name) ∧
      m.written = .ok (documentOf m.value).written) :
    membersText members = .ok (Document.writtenMembers
      (members.map fun m => (nameOfKey m.key, documentOf m.value))) := by
  induction members with
  | nil => rfl
  | cons m rest ih =>
    obtain ⟨⟨⟨name, hname⟩, hwritten⟩, hrest⟩ := List.forall_mem_cons.mp h
    rw [membersText, hname, hwritten, ih hrest, List.map_cons, hname]
    rfl

/-- The members of an object are written in the order of their names. -/
theorem write_dict {entries : List (Data × Data)}
    (hkeys : ∀ e ∈ entries, ∃ name, e.1 = .text name) (hnodup : (entries.map (·.1)).Nodup)
    (hvalues : ∀ e ∈ entries, write e.2 = .ok (documentOf e.2).written) :
    write (.dict entries) = .ok (documentOf (.dict entries)).written ∧
      (((membersOf entries).mergeSort nameAtMost).map (·.1)).Pairwise (· < ·) := by
  have compared := compared_writeEntries hkeys hnodup
  have names := nodup_names hkeys hnodup
  have differ : ((writeEntries entries).map fun m => nameOfKey m.key).Nodup := by
    rw [writeEntries_eq_map, List.map_map]
    exact names
  obtain ⟨members, hmembers, hperm, -⟩ := exists_sorted_ascending compared
  have ascend := ((sorted_eq_iff compared differ).mp hmembers).2
  rw [writeEntries_eq_map] at hperm
  have each : ∀ m ∈ members, (∃ name, m.key = .text name) ∧
      m.written = .ok (documentOf m.value).written := by
    intro m hm
    obtain ⟨e, he, rfl⟩ := List.mem_map.mp (hperm.mem_iff.mp hm)
    exact ⟨hkeys e he, hvalues e he⟩
  -- What is written is in order, and there is only one such list of these members.
  have inOrder : (members.map fun m => (nameOfKey m.key, documentOf m.value)) =
      (membersOf entries).mergeSort nameAtMost := by
    have ascending : ((members.map fun m => (nameOfKey m.key, documentOf m.value)).map
        (·.1)).Pairwise (· < ·) := by
      rw [List.map_map]
      exact List.pairwise_map.mpr ascend
    rw [← mergeSort_of_pairwise ascending, mergeSort_eq_iff ascending.nodup, membersOf_eq_map]
    have image := hperm.map fun m => (nameOfKey m.key, documentOf m.value)
    rwa [List.map_map] at image
  refine ⟨?_, ?_⟩
  · show (sorted Member.less (writeEntries entries) >>= _) = _
    rw [hmembers]
    show (membersText members >>= _) = _
    rw [membersText_of_write each, inOrder]
    rfl
  · rw [← inOrder, List.map_map]
    exact List.pairwise_map.mpr ascend

/-- The elements of an array are written in their order. -/
theorem write_list {items : List Data}
    (each : ∀ d ∈ items, write d = .ok (documentOf d).written ∧ (documentOf d).Ordered) :
    write (.list items) = .ok (documentOf (.list items)).written ∧
      (documentOf (.list items)).Ordered := by
  refine ⟨?_, ?_⟩
  · rw [write, itemsText_of_write fun d hd => (each d hd).1]
    rfl
  · show Document.OrderedItems (documentsOf items)
    rw [Document.orderedItems_iff, documentsOf_eq_map]
    exact List.forall_mem_map.mpr fun d hd => (each d hd).2

/-- **Plain data are written as their document**, and it is ordered. -/
theorem write_documentOf {d : Data} (h : IsPlain d) :
    write d = .ok (documentOf d).written ∧ (documentOf d).Ordered := by
  -- on the data; only lists, tuples and mappings hold other data
  induction d using dataInduction with
  | list items ih => exact write_list fun d hd => ih d hd (arePlain_iff.mp h d hd)
  | tuple items ih => exact write_list fun d hd => ih d hd (arePlain_iff.mp h d hd)
  | dict entries ih =>
    obtain ⟨hentries, hnodup⟩ := h
    have plain := entriesArePlain_iff.mp hentries
    obtain ⟨written, ascend⟩ := write_dict (fun e he => (plain e he).1) hnodup
      fun e he => (ih e he (plain e he).2).1
    -- the members are in order, and each is in order itself
    refine ⟨written, ascend, ?_⟩
    rw [Document.orderedMembers_iff]
    intro m hm
    rw [List.mem_mergeSort, membersOf_eq_map] at hm
    obtain ⟨e, he, rfl⟩ := List.mem_map.mp hm
    exact (ih e he (plain e he).2).2
  | scalar d hlist htuple hdict =>
    cases d with
    | null | bool | int | float | text => exact ⟨rfl, trivial⟩
    | list items => exact absurd rfl (hlist items)
    | tuple items => exact absurd rfl (htuple items)
    | dict entries => exact absurd rfl (hdict entries)
    | _ => exact h.elim

/-! ## What is read -/

theorem sameKey_text (name name' : String) :
    Data.sameKey (.text name) (.text name') = (name == name') := by
  simp [Data.sameKey, Data.same, Data.sameScalar?, Data.number?, Data.asInt?, Data.asText?]

/-- Whether entries have different texts as keys and plain data under them. -/
def AreMembers (entries : List (Data × Data)) : Prop :=
  (∀ e ∈ entries, (∃ name, e.1 = .text name) ∧ IsPlain e.2) ∧ (entries.map (·.1)).Nodup

/-- A member that is put into an object keeps the keys different. -/
theorem areMembers_putEntry {entries : List (Data × Data)} (h : AreMembers entries)
    {name : String} {d : Data} (hd : IsPlain d) :
    AreMembers (Data.putEntry Data.sameKey entries (.text name, d)) := by
  obtain ⟨hentries, hnodup⟩ := h
  unfold Data.putEntry
  -- a known name gets the new value, and a new one goes to the end
  split_ifs with known
  · refine ⟨List.forall_mem_map.mpr fun e he => ?_, ?_⟩
    · obtain ⟨hkey, hvalue⟩ := hentries e he
      split_ifs
      · exact ⟨hkey, hd⟩
      · exact ⟨hkey, hvalue⟩
    -- replacing a value keeps the keys
    · have keys : (entries.map fun e => if Data.sameKey e.1 (.text name) then (e.1, d) else e).map
          (·.1) = entries.map (·.1) := by
        rw [List.map_map]
        refine List.map_congr_left fun e _ => ?_
        show (if _ then _ else _ : Data × Data).1 = e.1
        split_ifs <;> rfl
      rw [keys]
      exact hnodup
  · refine ⟨List.forall_mem_append.mpr ⟨hentries, ?_⟩, ?_⟩
    · exact List.forall_mem_singleton.mpr ⟨⟨name, rfl⟩, hd⟩
    · rw [List.map_append, List.map_singleton, ← List.concat_eq_append]
      refine List.Nodup.concat ?_ hnodup
      intro hmem
      obtain ⟨e, he, hkey⟩ := List.mem_map.mp hmem
      refine known (List.any_eq_true.mpr ⟨e, he, ?_⟩)
      rw [hkey, sameKey_text]
      exact beq_self_eq_true name

theorem areMembers_foldl {members : List (String × Document)}
    (each : ∀ m ∈ members, IsPlain m.2.data) {entries : List (Data × Data)}
    (h : AreMembers entries) :
    AreMembers ((Document.dataOfMembers members).foldl (Data.putEntry Data.sameKey) entries) := by
  induction members generalizing entries with
  | nil => exact h
  | cons m rest ih =>
    obtain ⟨hm, hrest⟩ := List.forall_mem_cons.mp each
    obtain ⟨name, d⟩ := m
    exact ih hrest (areMembers_putEntry h hm)

/-- **What a document is read as is plain.** -/
theorem isPlain_data (D : Document) : IsPlain D.data := by
  induction D using Document.induction with
  | array items ih =>
    show ArePlain (Document.dataOfItems items)
    rw [arePlain_iff, Document.dataOfItems_eq_map]
    exact List.forall_mem_map.mpr ih
  | object members ih =>
    have none : AreMembers [] := ⟨List.forall_mem_nil _, List.nodup_nil⟩
    obtain ⟨hentries, hnodup⟩ := areMembers_foldl ih none
    exact ⟨entriesArePlain_iff.mpr hentries, hnodup⟩
  | _ => exact trivial

/-- Members with different names are all put at the end. -/
theorem foldl_putEntry {members : List (String × Document)} {entries : List (Data × Data)}
    (fresh : ∀ m ∈ members, (entries.any fun e => Data.sameKey e.1 (.text m.1)) = false)
    (h : (members.map (·.1)).Nodup) :
    (Document.dataOfMembers members).foldl (Data.putEntry Data.sameKey) entries =
      entries ++ Document.dataOfMembers members := by
  -- on the members, with the entries read so far; no name comes again
  induction members generalizing entries with
  | nil => exact (List.append_nil entries).symm
  | cons m rest ih =>
    obtain ⟨name, d⟩ := m
    obtain ⟨hm, hrest⟩ := List.forall_mem_cons.mp fresh
    obtain ⟨hname, hnodup⟩ := List.nodup_cons.mp h
    have put : Data.putEntry Data.sameKey entries (.text name, d.data) =
        entries ++ [(.text name, d.data)] := if_neg (by rw [hm]; decide)
    have still : ∀ m' ∈ rest, ((entries ++ [(Data.text name, d.data)]).any
        fun e => Data.sameKey e.1 (.text m'.1)) = false := by
      intro m' hm'
      have hne : name ≠ m'.1 := by
        rintro rfl
        exact hname (List.mem_map.mpr ⟨m', hm', rfl⟩)
      rw [List.any_append, hrest m' hm', List.any_cons, List.any_nil, sameKey_text]
      simpa using hne
    show (Document.dataOfMembers rest).foldl (Data.putEntry Data.sameKey)
      (Data.putEntry Data.sameKey entries (.text name, d.data)) = _
    rw [put, ih still hnodup, List.append_assoc]
    rfl

/-- Different names make a mapping with an entry for every member. -/
theorem data_object {members : List (String × Document)} (h : (members.map (·.1)).Nodup) :
    (Document.object members).data = .dict (Document.dataOfMembers members) :=
  congrArg Data.dict ((foldl_putEntry (fun _ _ => rfl) h).trans (List.nil_append _))

/-- An ordered document is the document of what it is read as. -/
theorem documentOf_data {D : Document} (h : D.Ordered) : documentOf D.data = D := by
  -- on the document; names in order are kept by sorting
  induction D using Document.induction with
  | array items ih =>
    rw [Document.Ordered, Document.orderedItems_iff] at h
    have back : documentsOf (Document.dataOfItems items) = items := by
      rw [documentsOf_eq_map, Document.dataOfItems_eq_map, List.map_map]
      exact (List.map_congr_left fun D hD => ih D hD (h D hD)).trans (List.map_id _)
    exact congrArg Document.array back
  | object members ih =>
    obtain ⟨hnames, hmembers⟩ := h
    rw [Document.orderedMembers_iff] at hmembers
    have back : membersOf (Document.dataOfMembers members) = members := by
      rw [membersOf_eq_map, Document.dataOfMembers_eq_map, List.map_map]
      refine (List.map_congr_left fun m hm => ?_).trans (List.map_id _)
      exact Prod.ext rfl (ih m hm (hmembers m hm))
    rw [data_object hnames.nodup, documentOf, back, mergeSort_of_pairwise hnames]
  | _ => rfl

/-- No document is read as a tuple. -/
theorem asLists_data {D : Document} (h : D.Ordered) : D.data.asLists = D.data := by
  induction D using Document.induction with
  | array items ih =>
    rw [Document.Ordered, Document.orderedItems_iff] at h
    show Data.list (Data.asListsEach (Document.dataOfItems items)) = .list _
    rw [Data.asListsEach_eq_map, Document.dataOfItems_eq_map, List.map_map]
    exact congrArg Data.list (List.map_congr_left fun D hD => ih D hD (h D hD))
  | object members ih =>
    obtain ⟨hnames, hmembers⟩ := h
    rw [Document.orderedMembers_iff] at hmembers
    rw [data_object hnames.nodup, Data.asLists, Data.asListsEntries_eq_map,
      Document.dataOfMembers_eq_map, List.map_map]
    refine congrArg Data.dict (List.map_congr_left fun m hm => ?_)
    exact Prod.ext rfl (ih m hm (hmembers m hm))
  | _ => rfl

/-! ## Equal documents -/

theorem nodup_membersOf {entries : List (Data × Data)} (hentries : EntriesArePlain entries)
    (hnodup : (entries.map (·.1)).Nodup) : ((membersOf entries).map (·.1)).Nodup := by
  have plain := entriesArePlain_iff.mp hentries
  rw [membersOf_eq_map, List.map_map]
  exact nodup_names (fun e he => (plain e he).1) hnodup

/-- Lists without repetitions have the same elements if one has those of the other and they are
equally long. -/
theorem perm_iff_of_nodup {α : Type} {xs ys : List α} (h : xs.Nodup) :
    xs.Perm ys ↔ xs.length = ys.length ∧ ∀ x ∈ xs, x ∈ ys := by
  constructor
  · intro hperm
    exact ⟨hperm.length_eq, fun x hx => hperm.mem_iff.mp hx⟩
  · rintro ⟨hlength, hsub⟩
    exact (h.subperm hsub).perm_of_length_le hlength.ge

/-- Lists of plain data have the same documents if they are equal place by place. -/
theorem documentsOf_eq_iff {items items' : List Data}
    (each : ∀ d ∈ items, ∀ d' ∈ items',
      documentOf d = documentOf d' ↔ d.asLists.EqUpToOrder d'.asLists) :
    documentsOf items = documentsOf items' ↔
      Data.EqUpToOrderEach (Data.asListsEach items) (Data.asListsEach items') := by
  induction items generalizing items' with
  | nil =>
    cases items' with
    | nil => simp [documentsOf, Data.asListsEach, Data.EqUpToOrderEach]
    | cons d' rest' => simp [documentsOf, Data.asListsEach, Data.EqUpToOrderEach]
  | cons d rest ih =>
    cases items' with
    | nil => simp [documentsOf, Data.asListsEach, Data.EqUpToOrderEach]
    | cons d' rest' =>
      have heads := each d List.mem_cons_self d' List.mem_cons_self
      have rests := ih fun e he e' he' =>
        each e (List.mem_cons_of_mem d he) e' (List.mem_cons_of_mem d' he')
      simp [documentsOf, Data.asListsEach, Data.EqUpToOrderEach, heads, rests]

/-- Plain mappings have one document if they have the same entries. -/
theorem object_eq_iff {entries entries' : List (Data × Data)} (h : IsPlain (.dict entries))
    (h' : IsPlain (.dict entries'))
    (each : ∀ e ∈ entries, ∀ e' ∈ entries',
      documentOf e.2 = documentOf e'.2 ↔ e.2.asLists.EqUpToOrder e'.2.asLists) :
    documentOf (.dict entries) = documentOf (.dict entries') ↔
      entries.length = entries'.length ∧
        Data.AreEntriesOf (Data.asListsEntries entries) (Data.asListsEntries entries') := by
  have names := nodup_membersOf h.1 h.2
  have plain := entriesArePlain_iff.mp h.1
  have plain' := entriesArePlain_iff.mp h'.1
  -- two members are equal if their keys and what is under them are
  have entry : ∀ e ∈ entries, ∀ e' ∈ entries',
      (nameOfKey e.1, documentOf e.2) = (nameOfKey e'.1, documentOf e'.2) ↔
        e.1 = e'.1 ∧ e.2.asLists.EqUpToOrder e'.2.asLists := by
    intro e he e' he'
    obtain ⟨name, hname⟩ := (plain e he).1
    obtain ⟨name', hname'⟩ := (plain' e' he').1
    rw [Prod.mk.injEq, each e he e' he', hname, hname', Data.text.injEq]
    rfl
  rw [documentOf, documentOf, Document.object.injEq, mergeSort_eq_iff names,
    perm_iff_of_nodup (List.Nodup.of_map _ names), membersOf_eq_map, membersOf_eq_map,
    List.length_map, List.length_map, Data.asListsEntries_eq_map, Data.asListsEntries_eq_map,
    Data.areEntriesOf_iff, List.forall_mem_map, List.forall_mem_map]
  refine and_congr_right fun _ => forall₂_congr fun e he => ?_
  constructor
  · intro hmem
    obtain ⟨e', he', heq⟩ := List.mem_map.mp hmem
    exact ⟨_, List.mem_map_of_mem he', (entry e he e' he').mp heq.symm⟩
  · rintro ⟨_, hmem, heq⟩
    obtain ⟨e', he', rfl⟩ := List.mem_map.mp hmem
    exact List.mem_map.mpr ⟨e', he', ((entry e he e' he').mpr heq).symm⟩

/-- A sequence of either kind has the document of a sequence that is equal to it as a list. -/
theorem array_eq_iff {items : List Data} {d' : Data} (h : ArePlain items) (h' : IsPlain d')
    (ih : ∀ d ∈ items, ∀ {d'}, IsPlain d → IsPlain d' →
      (documentOf d = documentOf d' ↔ d.asLists.EqUpToOrder d'.asLists)) :
    documentOf (.list items) = documentOf d' ↔
      (Data.list items).asLists.EqUpToOrder d'.asLists := by
  have each : ∀ items', ArePlain items' → ∀ d ∈ items, ∀ d' ∈ items',
      documentOf d = documentOf d' ↔ d.asLists.EqUpToOrder d'.asLists :=
    fun items' hitems' d hd d' hd' =>
      ih d hd (arePlain_iff.mp h d hd) (arePlain_iff.mp hitems' d' hd')
  cases d' with
  | list items' =>
    simp [documentOf, Data.asLists, Data.EqUpToOrder, documentsOf_eq_iff (each items' h')]
  | tuple items' =>
    simp [documentOf, Data.asLists, Data.EqUpToOrder, documentsOf_eq_iff (each items' h')]
  | null | bool | int | float | text | dict =>
    simp [documentOf, Data.asLists, Data.EqUpToOrder]
  | _ => exact h'.elim

/-- **Plain data have one document if they are equal up to the order of mappings** and to the kind
of sequences. -/
theorem documentOf_eq_iff {d d' : Data} (h : IsPlain d) (h' : IsPlain d') :
    documentOf d = documentOf d' ↔ d.asLists.EqUpToOrder d'.asLists := by
  -- on the first; the second must be of the same shape
  induction d using dataInduction generalizing d' with
  | list items ih => exact array_eq_iff h h' ih
  | tuple items ih => exact array_eq_iff h h' ih
  | dict entries ih =>
    cases d' with
    | dict entries' =>
      rw [object_eq_iff h h' fun e he e' he' => ih e he (entriesArePlain_iff.mp h.1 e he).2
        (entriesArePlain_iff.mp h'.1 e' he').2]
      simp [Data.asLists, Data.EqUpToOrder, Data.asListsEntries_eq_map]
    | null | bool | int | float | text | list | tuple =>
      simp [documentOf, Data.asLists, Data.EqUpToOrder]
    | _ => exact h'.elim
  | scalar d hlist htuple hdict =>
    cases d with
    | null | bool | int | float | text =>
      cases d' with
      | null | bool | int | float | text | list | tuple | dict =>
        simp [documentOf, Data.asLists, Data.EqUpToOrder]
      | _ => exact h'.elim
    | list items => exact absurd rfl (hlist items)
    | tuple items => exact absurd rfl (htuple items)
    | dict entries => exact absurd rfl (hdict entries)
    | _ => exact h.elim

/-! ## What was read is written again -/

/-- The names of plain data ascend, at every depth. -/
theorem keysAscend_of_isPlain {d : Data} (h : IsPlain d) : KeysAscend d := by
  obtain ⟨written, ordered⟩ := write_documentOf h
  obtain ⟨D, hwritten, hD⟩ := exists_document written
  rw [← hD, ← Document.written_injective hwritten]
  exact ordered

/-- What is written for what was read is the text that was read, if the document was ordered. -/
theorem write_data_eq_iff (D : Document) : write D.data = .ok D.written ↔ D.Ordered := by
  obtain ⟨written, ordered⟩ := write_documentOf (isPlain_data D)
  rw [written, Except.ok.injEq, Document.written_injective.eq_iff]
  constructor
  · intro h
    rw [← h]
    exact ordered
  · exact documentOf_data

end Json

open Json

theorem Value.make_json_eq_ok_iff {d : Data} {v : Value} :
    Value.make .json d = .ok v ↔ ∃ s, Json.write d = .ok s ∧ v = .json s := by
  show Value.ofJson d = .ok v ↔ _
  unfold Value.ofJson
  cases Json.write d with
  | error e => simp
  | ok s => simp [eq_comm]

/-- **What was read from a JSON value is the same value again if the keys ascend** in the order in
which they were written: texts do, but numbers are put into order as numbers and read as texts. -/
theorem reencoded_same_iff {d : Data} {v : Value} (h : Value.make .json d = .ok v) :
    ∃ n v', v.native? = some n ∧ Value.make .json n = .ok v' ∧
      (v'.same v = true ↔ KeysAscend d) := by
  obtain ⟨s, hs, rfl⟩ := Value.make_json_eq_ok_iff.mp h
  obtain ⟨D, rfl, hD⟩ := exists_document hs
  obtain ⟨written, -⟩ := write_documentOf (isPlain_data D)
  refine ⟨D.data, .json (documentOf D.data).written, D.read?_written,
    Value.make_json_eq_ok_iff.mpr ⟨_, written, rfl⟩, ?_⟩
  rw [← hD, ← write_data_eq_iff, written, Except.ok.injEq]
  exact beq_iff_eq

/-- Nine comes before ten, but as texts it is the other way around. -/
theorem reencoded_nine_ten :
    Value.make .json (.dict [(.int 9, .int 0), (.int 10, .int 0)]) =
        .ok (.json "\x7b\"9\":0,\"10\":0\x7d") ∧
      ∃ n v', (Value.json "\x7b\"9\":0,\"10\":0\x7d").native? = some n ∧
        Value.make .json n = .ok v' ∧ v'.same (.json "\x7b\"9\":0,\"10\":0\x7d") = false := by
  have written : Value.make .json (.dict [(.int 9, .int 0), (.int 10, .int 0)]) =
      .ok (.json "\x7b\"9\":0,\"10\":0\x7d") :=
    Value.make_json_eq_ok_iff.mpr ⟨_, by decide +kernel, rfl⟩
  have names : memberNames [(.int 9, .int 0), (.int 10, .int 0)] = .ok ["9", "10"] := by
    decide +kernel
  obtain ⟨n, v', hn, hv', hsame⟩ := reencoded_same_iff written
  refine ⟨written, n, v', hn, hv', ?_⟩
  rw [Bool.eq_false_iff, ne_eq, hsame]
  intro ascend
  have lower := ascend.1 _ names
  exact absurd lower (by decide)

/-- **JSON values are faithful to plain data.** What is read from the value is the data, with lists
for tuples and up to the order of mappings, and two values are the same if the data are. -/
theorem json_faithful {d₁ d₂ : Data} (h₁ : IsPlain d₁) (h₂ : IsPlain d₂) :
    ∃ v₁ v₂ n, Value.make .json d₁ = .ok v₁ ∧ Value.make .json d₂ = .ok v₂ ∧
      v₁.native? = some n ∧ n.EqUpToOrder d₁.asLists ∧
      (v₁.same v₂ = true ↔ d₁.asLists.EqUpToOrder d₂.asLists) := by
  obtain ⟨written₁, ordered₁⟩ := write_documentOf h₁
  obtain ⟨written₂, -⟩ := write_documentOf h₂
  refine ⟨_, _, (documentOf d₁).data, Value.make_json_eq_ok_iff.mpr ⟨_, written₁, rfl⟩,
    Value.make_json_eq_ok_iff.mpr ⟨_, written₂, rfl⟩, (documentOf d₁).read?_written, ?_, ?_⟩
  · rw [← asLists_data ordered₁, ← documentOf_eq_iff (isPlain_data _) h₁]
    exact documentOf_data ordered₁
  · rw [← documentOf_eq_iff h₁ h₂, ← Document.written_injective.eq_iff]
    exact beq_iff_eq

/-- A mapping with a tuple is the same value as the mapping with a list, in the other order. -/
theorem json_faithful_reordered :
    ∃ v₁ v₂ n,
      Value.make .json (.dict [(.text "b", .tuple [.int 1, .bool true]), (.text "a", .null)]) =
        .ok v₁ ∧
      Value.make .json (.dict [(.text "a", .null), (.text "b", .list [.int 1, .bool true])]) =
        .ok v₂ ∧
      v₁.native? = some n ∧
      n.EqUpToOrder (.dict [(.text "b", .list [.int 1, .bool true]), (.text "a", .null)]) ∧
      v₁.same v₂ = true := by
  have plain : IsPlain (.dict [(.text "b", .tuple [.int 1, .bool true]), (.text "a", .null)]) := by
    simp [IsPlain, ArePlain, EntriesArePlain, EntryIsPlain]
  have plain' : IsPlain (.dict [(.text "a", .null), (.text "b", .list [.int 1, .bool true])]) := by
    simp [IsPlain, ArePlain, EntriesArePlain, EntryIsPlain]
  obtain ⟨v₁, v₂, n, h₁, h₂, hn, hread, hsame⟩ := json_faithful plain plain'
  refine ⟨v₁, v₂, n, h₁, h₂, hn, hread, hsame.mpr ?_⟩
  simp [Data.asLists, Data.asListsEach, Data.asListsEntries, Data.asListsEntry, Data.EqUpToOrder,
    Data.EqUpToOrderEach, Data.AreEntriesOf, Data.EntryEqUpToOrder]

end SqlScribe
