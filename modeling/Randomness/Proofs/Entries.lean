import Randomness.Index.Remote
import Randomness.Proofs.Documents
import Randomness.Proofs.History

/-!
What an index says: which documents are items, pages and faults, and which entry an item tells, if any. Reading
agrees with it.
-/

namespace Randomness.Index.Remote

open Document

/-! ## Documents -/

section

variable {d : Document}

/-- A document is an item's data: a record with a text, and with a number that may be missing or null. -/
def ItemData.Shown (d : Document) (a : ItemData) : Prop :=
  ∃ m, d.record? ["data", "discriminator"] = some m ∧ m "data" = some (Document.text a.text) ∧
    Tells (Is fun n : UInt64 => number n.toNat) (m "discriminator") a.discriminator

/-- A document is an item: a record with a text as hash, and with members that may all be missing or null. -/
def Item.Shown (d : Document) (i : Item) : Prop :=
  ∃ m, d.record? ["hash", "address", "data", "tree", "leafIndex"] = some m ∧ m "hash" = some (text i.hash) ∧
    Tells (Is text) (m "address") i.address ∧ Tells ItemData.Shown (m "data") i.data ∧
    Tells (Is text) (m "tree") i.tree ∧ Tells (Is fun n : UInt32 => number n.toNat) (m "leafIndex") i.leafIndex

/-- A document is a page: a record with items and with a cursor, which may be missing or null. -/
def Page.Shown (d : Document) (p : Page) : Prop :=
  ∃ m items, d.record? ["items", "cursor"] = some m ∧ m "items" = some (array items) ∧
    List.Forall₂ Item.Shown items p.items ∧ Tells (Is text) (m "cursor") p.cursor

/-- A result has a page as its value. -/
def Page.Within (d : Document) (p : Page) : Prop :=
  ∃ m e, d.record? ["value"] = some m ∧ m "value" = some e ∧ Page.Shown e p

/-- A document is a fault: a record with a code, which fits into 64 bits with its sign, and a message. -/
def Fault.Shown (d : Document) (f : Fault) : Prop :=
  ∃ m, d.record? ["code", "message"] = some m ∧ m "code" = some (integer f.code) ∧
    -9223372036854775808 ≤ f.code ∧ f.code < 9223372036854775808 ∧ m "message" = some (text f.message)

theorem required_text_eq_some_iff {d : Option Document} {s : String} :
    required text? d = some s ↔ d = some (text s) := by
  simp only [required_eq_some_iff, text?_eq_some_iff, exists_eq_right]

theorem optional_text_eq_some_iff {d : Option Document} {s : Option String} :
    optional text? d = some s ↔ Tells (Is text) d s := optional_eq_some_iff text?_eq_some_iff

theorem optional_u32_eq_some_iff {d : Option Document} {n : Option UInt32} :
    optional u32? d = some n ↔ Tells (Is fun n : UInt32 => number n.toNat) d n := optional_eq_some_iff u32?_eq_some_iff

theorem optional_u64_eq_some_iff {d : Option Document} {n : Option UInt64} :
    optional u64? d = some n ↔ Tells (Is fun n : UInt64 => number n.toNat) d n := optional_eq_some_iff u64?_eq_some_iff

theorem ItemData.read?_eq_some_iff {a : ItemData} : ItemData.read? d = some a ↔ Shown d a := by
  simp only [read?, Option.bind_eq_bind, Option.bind_eq_some_iff, required_text_eq_some_iff,
    optional_u64_eq_some_iff]
  constructor
  · intro h
    obtain ⟨m, members, s, told, n, number, made⟩ := h
    cases made
    exact ⟨m, members, told, number⟩
  · intro h
    obtain ⟨m, members, told, number⟩ := h
    exact ⟨m, members, _, told, _, number, rfl⟩

theorem Item.read?_eq_some_iff {i : Item} : Item.read? d = some i ↔ Shown d i := by
  simp only [read?, Option.bind_eq_bind, Option.bind_eq_some_iff, required_text_eq_some_iff,
    optional_text_eq_some_iff, optional_eq_some_iff ItemData.read?_eq_some_iff, optional_u32_eq_some_iff]
  constructor
  · intro h
    obtain ⟨m, members, hash, hashed, address, addressed, data, filled, tree, planted, leaf, placed, made⟩ := h
    cases made
    exact ⟨m, members, hashed, addressed, filled, planted, placed⟩
  · intro h
    obtain ⟨m, members, hashed, addressed, filled, planted, placed⟩ := h
    exact ⟨m, members, _, hashed, _, addressed, _, filled, _, planted, _, placed, rfl⟩

theorem mapM_read?_eq_some_iff {items : List Document} {list : List Item} :
    items.mapM Item.read? = some list ↔ List.Forall₂ Item.Shown items list := by
  simp only [mapM_eq_some_iff, Item.read?_eq_some_iff]

theorem Page.read?_eq_some_iff {p : Page} : Page.read? d = some p ↔ Shown d p := by
  simp only [read?, Option.bind_eq_bind, Option.bind_eq_some_iff, required_eq_some_iff, optional_text_eq_some_iff]
  constructor
  · intro h
    obtain ⟨m, members, items, ⟨list, told, each⟩, cursor, named, made⟩ := h
    cases made
    cases list with
    | array docs => exact ⟨m, docs, members, told, mapM_read?_eq_some_iff.1 each, named⟩
    | _ => cases each
  · intro h
    obtain ⟨m, docs, members, told, each, named⟩ := h
    exact ⟨m, members, _, ⟨_, told, mapM_read?_eq_some_iff.2 each⟩, _, named, rfl⟩

theorem inResult?_eq_some_iff {p : Page} : inResult? (required Page.read?) d = some p ↔ Page.Within d p := by
  simp only [inResult?, Option.bind_eq_bind, Option.bind_eq_some_iff, required_eq_some_iff, Page.read?_eq_some_iff]
  constructor
  · intro h
    obtain ⟨m, members, e, value, page⟩ := h
    exact ⟨m, e, members, value, page⟩
  · intro h
    obtain ⟨m, e, members, value, page⟩ := h
    exact ⟨m, members, e, value, page⟩

theorem Fault.read?_eq_some_iff {f : Fault} : Fault.read? d = some f ↔ Shown d f := by
  have bounds : Int64.minValue.toInt = -9223372036854775808 ∧ Int64.maxValue.toInt + 1 = 9223372036854775808 := by
    decide
  simp only [read?, Option.bind_eq_bind, Option.bind_eq_some_iff, required_eq_some_iff, text?_eq_some_iff, int64?,
    integer?_eq_some_iff, bounds]
  constructor
  · intro h
    obtain ⟨m, members, code, ⟨_, coded, rfl, least, below⟩, message, ⟨_, told, rfl⟩, made⟩ := h
    cases made
    exact ⟨m, members, coded, least, below, told⟩
  · intro h
    obtain ⟨m, members, coded, least, below, told⟩ := h
    exact ⟨m, members, _, ⟨_, coded, rfl, least, below⟩, _, ⟨_, told, rfl⟩, rfl⟩

end

/-! ## Entries -/

/-- The bytes that an item's data stand for: those of the text, behind the eight bytes of a number that is told beside
it, the least significant one first. -/
inductive ItemData.Means (d : ItemData) : Bytes → Prop
  | alone {bs : Bytes} (missing : d.discriminator = none)
      (read : Base64.decode (Text.utf8 d.text.toList) = .ok bs) : Means d bs
  | beside {n : UInt64} {bs : Bytes} (given : d.discriminator = some n)
      (read : Base64.decode (Text.utf8 d.text.toList) = .ok bs) : Means d (LittleEndian.encode 8 n.toNat ++ bs)

/-- A text tells an address, or both are missing. -/
inductive Names : Option String → Option Address → Prop
  | missing : Names none none
  | text {s : String} {a : Address} (read : Address.parse s = .ok a) : Names (some s) (some a)

/-- An item tells an entry. Its data are there and its hash has 32 bytes; an address and a tree may be missing, and
the leaf is the first one where it is not told. -/
structure Item.Parses (i : Item) (e : IndexEntry) : Prop where
  data : ∃ d, i.data = some d ∧ d.Means e.data
  hash : Base58.decode i.hash.toList = .ok e.hash.bytes
  address : Names i.address e.address
  tree : Names i.tree e.tree
  leafIndex : i.leafIndex = some e.leafIndex ∨ i.leafIndex = none ∧ e.leafIndex = 0

/-- The entry that an item tells, or none where it tells none. -/
inductive Item.Yields (i : Item) : Option IndexEntry → Prop
  | entry {e : IndexEntry} (parses : i.Parses e) : Yields i (some e)
  | nothing (bad : ∀ e, ¬ i.Parses e) : Yields i none

theorem ItemData.bytes_eq_ok_iff {d : ItemData} {bs : Bytes} : d.bytes = .ok bs ↔ d.Means bs := by
  simp only [bytes, bind_eq_ok, pure_eq_ok, mapError_eq_ok]
  constructor
  · intro h
    obtain ⟨payload, read, made⟩ := h
    cases given : d.discriminator with
    | none =>
      rw [given] at made
      exact made ▸ .alone given read
    | some n =>
      rw [given] at made
      exact made ▸ .beside given read
  · intro means
    cases means with
    | alone missing read => exact ⟨bs, read, by rw [missing]⟩
    | beside given read => exact ⟨_, read, by rw [given]; rfl⟩

theorem addressOf_eq_ok_iff {fault : Address.Fault → ItemFault} {s : Option String} {a : Option Address} :
    addressOf fault s = .ok a ↔ Names s a := by
  cases s with
  | none =>
    constructor
    · intro same
      cases same
      exact .missing
    · intro names
      cases names
      rfl
  | some s =>
    simp only [addressOf, map_eq_ok, mapError_eq_ok]
    constructor
    · intro h
      obtain ⟨a, read, rfl⟩ := h
      exact .text read
    · intro names
      cases names with
      | text read => exact ⟨_, read, rfl⟩

theorem block_eq_ok {what : String} {n : Nat} {bs : Bytes} {b : Block n} :
    block what n bs = .ok b ↔ bs = b.bytes := by
  rw [block, ← Block.ofBytes?_eq_some_iff]
  cases Block.ofBytes? n bs <;> simp

theorem getD_zero_eq_iff {n : Option UInt32} {k : UInt32} : n.getD 0 = k ↔ n = some k ∨ n = none ∧ k = 0 := by
  cases n <;> simp [eq_comm]

/-- An entry has all that its item tells, read from its texts. -/
theorem Item.parses_iff {i : Item} {e : IndexEntry} : i.Parses e ↔ i.entry? = .ok (some e) := by
  unfold entry?
  constructor
  · intro h
    obtain ⟨⟨d, given, means⟩, hash, address, tree, leaf⟩ := h
    simp only [given, bind_eq_ok, pure_eq_ok, mapError_eq_ok, block_eq_ok, ItemData.bytes_eq_ok_iff,
      addressOf_eq_ok_iff, Option.some.injEq]
    exact ⟨_, means, _, hash, _, rfl, _, address, _, tree, by rw [getD_zero_eq_iff.2 leaf]⟩
  · intro entry
    cases given : i.data with
    | none =>
      rw [given] at entry
      cases entry
    | some d =>
      simp only [given, bind_eq_ok, pure_eq_ok, mapError_eq_ok, block_eq_ok, ItemData.bytes_eq_ok_iff,
        addressOf_eq_ok_iff, Option.some.injEq] at entry
      obtain ⟨_, means, _, hash, _, rfl, _, address, _, tree, rfl⟩ := entry
      exact ⟨⟨d, given, means⟩, hash, address, tree, getD_zero_eq_iff.1 rfl⟩

/-- The entry that a scan takes from an item. -/
def Item.listed? (i : Item) : Option IndexEntry :=
  match i.entry? with
  | .ok e => e
  | .error _ => none

theorem Item.listed?_eq_some_iff {i : Item} {e : IndexEntry} : i.listed? = some e ↔ i.Parses e := by
  rw [parses_iff, listed?]
  cases i.entry? <;> simp

theorem Item.yields_iff {i : Item} {e : Option IndexEntry} : i.Yields e ↔ i.listed? = e := by
  constructor
  · intro yields
    cases yields with
    | entry parses => exact listed?_eq_some_iff.2 parses
    | nothing bad =>
      rw [Option.eq_none_iff_forall_ne_some]
      exact fun e listed => bad e (listed?_eq_some_iff.1 listed)
  · rintro rfl
    cases listed : i.listed? with
    | none =>
      apply Item.Yields.nothing
      intro e parses
      rw [listed?_eq_some_iff.2 parses] at listed
      cases listed
    | some e => exact .entry (listed?_eq_some_iff.1 listed)

theorem Page.entries_eq (p : Page) : p.entries = p.items.filterMap Item.listed? := rfl

theorem filterMap_listed? {items : List Item} {told : List (Option IndexEntry)}
    (yields : List.Forall₂ Item.Yields items told) : items.filterMap Item.listed? = told.filterMap id := by
  induction yields with
  | nil => rfl
  | cons first _ ih =>
    rw [List.filterMap_cons, List.filterMap_cons, ih, Item.yields_iff.1 first]
    rfl

theorem forall₂_yields (items : List Item) : List.Forall₂ Item.Yields items (items.map Item.listed?) := by
  rw [List.forall₂_map_right_iff, List.forall₂_same]
  exact fun i _ => Item.yields_iff.2 rfl

end Randomness.Index.Remote
