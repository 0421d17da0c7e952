import Mathlib.Data.List.Forall2
import Randomness.Document

/-!
What is written into a document is read from it again, and what is read from a document is what it says.
-/

namespace Randomness.Document

/-! What is written is never null, unless it is an option. -/

theorem text_ne_null (s : String) : text s ≠ null := by
  intro same
  cases same

theorem number_ne_null (n : Nat) : number n ≠ null := by
  intro same
  cases same

theorem record_ne_null (members : List (String × Document)) : record members ≠ null := by
  intro same
  cases same

theorem integer?_integer {low high n : Int} (least : low ≤ n) (below : n < high) :
    (integer n).integer? low high = some n := if_pos ⟨least, below⟩

theorem nat?_number {size n : Nat} (below : n < size) : (number n).nat? size = some n := by
  rw [nat?, number, integer?_integer (Int.natCast_nonneg n) (Int.ofNat_lt.2 below), Option.map_some,
    Int.toNat_natCast]

theorem u32?_number (n : UInt32) : (number n.toNat).u32? = some n := by
  rw [u32?, nat?_number n.toNat_lt, Option.map_some, UInt32.ofNat_toNat]

theorem u64?_number (n : UInt64) : (number n.toNat).u64? = some n := by
  rw [u64?, nat?_number n.toNat_lt, Option.map_some, UInt64.ofNat_toNat]

theorem integer?_eq_some_iff {low high n : Int} {d : Document} :
    d.integer? low high = some n ↔ d = integer n ∧ low ≤ n ∧ n < high := by
  constructor
  · intro h
    cases d with
    | integer k =>
      obtain ⟨inside, same⟩ := Option.ite_none_right_eq_some.1 h
      obtain rfl := Option.some.inj same
      exact ⟨rfl, inside⟩
    | _ => cases h
  · intro h
    obtain ⟨rfl, least, below⟩ := h
    exact integer?_integer least below

theorem text?_eq_some_iff {d : Document} {s : String} : d.text? = some s ↔ d = text s := by
  cases d <;> simp [text?, text]

theorem nat?_eq_some_iff {size n : Nat} {d : Document} : d.nat? size = some n ↔ d = number n ∧ n < size := by
  constructor
  · intro h
    obtain ⟨k, read, rfl⟩ := Option.map_eq_some_iff.1 h
    obtain ⟨rfl, least, below⟩ := integer?_eq_some_iff.1 read
    refine ⟨?_, by omega⟩
    rw [number, Int.toNat_of_nonneg least]
  · rintro ⟨rfl, below⟩
    exact nat?_number below

theorem u32?_eq_some_iff {d : Document} {n : UInt32} : d.u32? = some n ↔ d = number n.toNat := by
  constructor
  · intro h
    obtain ⟨k, read, rfl⟩ := Option.map_eq_some_iff.1 h
    obtain ⟨rfl, below⟩ := nat?_eq_some_iff.1 read
    exact congrArg number (UInt32.toNat_ofNat_of_lt' below).symm
  · rintro rfl
    exact u32?_number n

theorem u64?_eq_some_iff {d : Document} {n : UInt64} : d.u64? = some n ↔ d = number n.toNat := by
  constructor
  · intro h
    obtain ⟨k, read, rfl⟩ := Option.map_eq_some_iff.1 h
    obtain ⟨rfl, below⟩ := nat?_eq_some_iff.1 read
    exact congrArg number (UInt64.toNat_ofNat_of_lt' below).symm
  · rintro rfl
    exact u64?_number n

/-- In a record whose names differ, each name stands for its member. -/
theorem record?_record {names : List String} {members : List (String × Document)}
    (once : names.all fun n => (members.map Prod.fst).count n ≤ 1) :
    (record members).record? names = some fun n => members.lookup n := by
  rw [record, record?, List.mapM_map]
  change (members.mapM (fun m => pure (id m)) >>= _) = _
  rw [List.mapM_pure, List.map_id]
  exact if_pos once

variable {read : Document → Option α} {write : α → Document}

theorem list?_array (again : ∀ a, read (write a) = some a) (as : List α) :
    (array (as.map write)).list? read = some as := by
  rw [list?, List.mapM_map, show read ∘ write = some from funext again]
  exact (List.mapM_pure ..).trans (congrArg some (List.map_id as))

/-- A member that is there is read again if it is never written as null. -/
theorem optional_ofOption (again : ∀ a, read (write a) = some a) (there : ∀ a, write a ≠ null)
    (a : Option α) : optional read (some (ofOption write a)) = some a := by
  cases a with
  | none => rfl
  | some a =>
    rw [ofOption, Option.map_some, Option.getD_some, optional, again, Option.map_some]
    exact there a

/-- The document is what a value is written as. -/
def Is (write : α → Document) (d : Document) (a : α) : Prop := d = write a

/-- A member tells an optional value: it is missing or null, or it is there and has the form for the value. -/
inductive Tells (form : Document → α → Prop) : Option Document → Option α → Prop
  | missing : Tells form none none
  | null : Tells form (some null) none
  | value {d : Document} {a : α} (there : d ≠ null) (told : form d a) : Tells form (some d) (some a)

theorem optional_eq_some_iff {form : Document → α → Prop} (reads : ∀ {d a}, read d = some a ↔ form d a)
    {d : Option Document} {a : Option α} : optional read d = some a ↔ Tells form d a := by
  constructor
  · intro h
    cases d with
    | none =>
      cases h
      exact .missing
    | some d =>
      by_cases empty : d = null
      · subst empty
        cases h
        exact .null
      · rw [optional, Option.map_eq_some_iff] at h
        · obtain ⟨a, told, rfl⟩ := h
          exact .value empty (reads.1 told)
        · exact empty
  · intro h
    cases h with
    | missing => rfl
    | null => rfl
    | value there told =>
      rw [optional, reads.2 told, Option.map_some]
      exact there

theorem optional_eq_none_iff {d : Option Document} :
    optional read d = none ↔ ∃ e, d = some e ∧ e ≠ null ∧ read e = none := by
  constructor
  · intro h
    cases d with
    | none => cases h
    | some d =>
      by_cases empty : d = null
      · subst empty
        cases h
      · rw [optional, Option.map_eq_none_iff] at h
        · exact ⟨d, rfl, empty, h⟩
        · exact empty
  · rintro ⟨e, rfl, there, unread⟩
    rw [optional, unread, Option.map_none]
    exact there

/-- A member is read if it would be wherever it is there. -/
theorem exists_optional {d : Option Document} (fits : ∀ e, d = some e → e ≠ null → read e ≠ none) :
    ∃ a, optional read d = some a := by
  rw [← Option.ne_none_iff_exists']
  intro bad
  obtain ⟨e, given, there, unread⟩ := optional_eq_none_iff.1 bad
  exact fits e given there unread

theorem required_eq_some_iff {d : Option Document} {a : α} :
    required read d = some a ↔ ∃ e, d = some e ∧ read e = some a := by
  cases d <;> simp [required]

theorem mapM_eq_some_iff {f : α → Option β} {as : List α} {bs : List β} :
    as.mapM f = some bs ↔ List.Forall₂ (fun a b => f a = some b) as bs := by
  induction as generalizing bs with
  | nil => simp [eq_comm]
  | cons a as ih =>
    simp only [List.mapM_cons, Option.bind_eq_bind, Option.bind_eq_some_iff, ih, List.forall₂_cons_left_iff]
    constructor
    · intro h
      obtain ⟨b, first, bs, rest, made⟩ := h
      cases made
      exact ⟨b, bs, first, rest, rfl⟩
    · intro h
      obtain ⟨b, bs, first, rest, rfl⟩ := h
      exact ⟨b, first, bs, rest, rfl⟩

theorem mapM_eq_some {f : α → Option β} {g : α → β} {as : List α} (each : ∀ a ∈ as, f a = some (g a)) :
    as.mapM f = some (as.map g) := by
  induction as with
  | nil => rfl
  | cons a as ih =>
    have first := each a List.mem_cons_self
    have others := ih fun b hb => each b (List.mem_cons_of_mem a hb)
    rw [List.mapM_cons, first, others]
    rfl

theorem mapM_eq_none_of_mem {f : α → Option β} {a : α} {as : List α} (mem : a ∈ as) (bad : f a = none) :
    as.mapM f = none := by
  induction as with
  | nil => cases mem
  | cons b as ih =>
    rw [List.mapM_cons]
    rcases List.mem_cons.1 mem with rfl | mem
    · rw [bad]
      rfl
    · rw [ih mem]
      cases f b <;> rfl

/-! What is a tree of values already is taken as it is. -/

section

variable {n : Nat}

@[simp] theorem tree?_bool (b : Bool) : (bool b).tree? n = some (bool b) := by
  cases n <;> rfl

@[simp] theorem tree?_text (s : String) : (text s).tree? n = some (text s) := by
  cases n <;> rfl

@[simp] theorem tree?_number (m : Nat) : (number m).tree? n = some (number m) := by
  cases n <;> rfl

theorem tree?_ofOption {f : α → Document} (each : ∀ a, (f a).tree? n = some (f a)) (a : Option α) :
    (ofOption f a).tree? n = some (ofOption f a) := by
  cases a with
  | none => cases n <;> rfl
  | some a => exact each a

theorem tree?_array {items : List Document} (trees : ∀ d ∈ items, d.tree? n = some d) :
    (array items).tree? (n + 1) = some (array items) := by
  have same : items.mapM (tree? n) = some (items.map id) := mapM_eq_some trees
  rw [tree?, same, List.map_id, Option.map_some]

theorem lastOfEach_eq {members : List (String × Document)} (once : (members.map Prod.fst).Nodup) :
    lastOfEach members = members := by
  induction members with
  | nil => rfl
  | cons m ms ih =>
    obtain ⟨new, others⟩ := List.nodup_cons.1 once
    have alone : ms.any (·.1 = m.1) = false := by
      rw [List.any_eq_false]
      intro e he same
      exact new (of_decide_eq_true same ▸ List.mem_map_of_mem he)
    rw [lastOfEach, alone, if_neg Bool.false_ne_true, ih others]

theorem tree?_record {members : List (String × Document)} (once : (members.map Prod.fst).Nodup)
    (trees : ∀ m ∈ members, m.2.tree? n = some m.2) :
    (record members).tree? (n + 1) = some (record members) := by
  rw [record, tree?, List.mapM_map, mapM_eq_some (g := id), List.map_id, Option.map_some, lastOfEach_eq once,
    record]
  intro m hm
  simp only [Function.comp, Option.bind_eq_bind, Option.bind_some, trees m hm]
  rfl

end

end Randomness.Document
