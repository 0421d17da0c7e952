import Randomness.Codec.Field
import Randomness.Proofs.Emission

/-!
Fields one after the other. What a list of fields writes is read back field by field, with the reader where the writer
was; what is read is written back; and a reader stops at the first field that ends behind the last byte, and at no
other one.
-/

namespace Randomness

/-- How many bytes fields of these types take. -/
def FieldType.total (ts : List FieldType) : Nat := (ts.map FieldType.width).sum

@[simp] theorem FieldType.total_nil : total [] = 0 := rfl

@[simp] theorem FieldType.total_cons (t : FieldType) (ts : List FieldType) :
    total (t :: ts) = t.width + total ts := by
  simp [total]

theorem FieldType.total_take_le (ts : List FieldType) (k : Nat) : total (ts.take k) ≤ total ts := by
  have split : total (ts.take k ++ ts.drop k) = total (ts.take k) + total (ts.drop k) := by
    simp only [total, List.map_append, List.sum_append]
  rw [List.take_append_drop] at split
  omega

namespace Field

/-- What is written for fields. -/
def written (fs : List Field) : Bytes := Item.encodeAll (fs.map .field)

/-- How much is written after each field, when `n` bytes stand before them. -/
def lengthsFrom (n : Nat) (fs : List Field) : List Nat := Item.lengthsFrom n (fs.map .field)

@[simp] theorem written_nil : written [] = [] := rfl

@[simp] theorem written_cons (f : Field) (fs : List Field) : written (f :: fs) = f.encode ++ written fs := rfl

theorem length_written (fs : List Field) : (written fs).length = FieldType.total (fs.map type) := by
  induction fs with
  | nil => rfl
  | cons f fs ih => simp [ih]

@[simp] theorem lengthsFrom_cons (n : Nat) (f : Field) (fs : List Field) :
    lengthsFrom n (f :: fs) = (n + f.type.width) :: lengthsFrom (n + f.type.width) fs := by
  simp [lengthsFrom, Item.lengthsFrom, Item.encode]

/-- The length after a field is that of all that is written up to it. -/
theorem getElem?_lengthsFrom (n : Nat) (fs : List Field) {k : Nat} (inside : k < fs.length) :
    (lengthsFrom n fs)[k]? = some (n + (written (fs.take (k + 1))).length) := by
  induction fs generalizing n k with
  | nil => simp at inside
  | cons f fs ih =>
    cases k with
    | zero => simp
    | succ k =>
      have next := ih (n + f.type.width) (k := k) (by simpa using inside)
      simp only [lengthsFrom_cons, List.getElem?_cons_succ, next, List.take_succ_cons, written_cons,
        List.length_append, length_encode, Nat.add_assoc]

end Field

namespace Reader

open Randomness.Field

variable {r : Reader} {t : FieldType} {ts : List FieldType}

theorem next?_eq_none_iff : r.next? t = none ↔ r.data.length < r.offset + t.width := by
  rw [next?, Option.map_eq_none_iff, Codec.readAt?, Option.map_eq_none_iff, Bytes.slice?]
  change (if _ : r.offset + t.width ≤ r.data.length then _ else none) = none ↔ _
  split <;> simp <;> omega

/-- A field that is read stands at the reader's place, and the reader moves behind it. -/
theorem next?_eq_some {v : t.Value} {r' : Reader} (h : r.next? t = some (v, r')) :
    r.data.drop r.offset = encode ⟨t, v⟩ ++ r.data.drop (r.offset + t.width) ∧
      r' = ⟨r.data, r.offset + t.width⟩ ∧ r.offset + t.width ≤ r.data.length := by
  have fits : ¬ r.data.length < r.offset + t.width := by
    rw [← next?_eq_none_iff, h]
    exact Option.some_ne_none _
  obtain ⟨w, read, same⟩ := Option.map_eq_some_iff.1 h
  obtain ⟨rfl, rfl⟩ := Prod.mk.inj same
  have whole := (List.take_append_drop r.offset r.data).trans (Codec.eq_of_readAt? read)
  exact ⟨List.append_cancel_left whole, rfl, by omega⟩

/-- A field that was written is read, whatever stands before it and behind it. -/
theorem next?_written (front rest : Bytes) (f : Field) :
    next? ⟨front ++ (f.encode ++ rest), front.length⟩ f.type =
      some (f.value, ⟨front ++ (f.encode ++ rest), front.length + f.type.width⟩) := by
  have read := Codec.readAt?_append f.type.codec f.value ⟨front, rfl⟩ rest
  simp only [next?, encode, read, Option.map_some]

theorem readAll_written (front rest : Bytes) (fs : List Field) :
    readAll ⟨front ++ (written fs ++ rest), front.length⟩ (fs.map type) =
      .ok (fs.zip (lengthsFrom front.length fs)) := by
  induction fs generalizing front with
  | nil => rfl
  | cons f fs ih =>
    have later := ih (front ++ f.encode)
    simp only [List.append_assoc, List.length_append, length_encode] at later
    simp only [List.map_cons, written_cons, List.append_assoc, readAll, next?_written, later, lengthsFrom_cons,
      List.zip_cons_cons]

/-- From a place inside the string, reading stops at the first field that ends outside. -/
theorem readAll_eq_error_iff (inside : r.offset ≤ r.data.length) {k : Nat} :
    r.readAll ts = .error k ↔ k < ts.length ∧ r.data.length < r.offset + FieldType.total (ts.take (k + 1)) ∧
      ∀ j ≤ k, r.offset + FieldType.total (ts.take j) ≤ r.data.length := by
  induction ts generalizing r k with
  | nil => simp [readAll]
  | cons t ts ih =>
    cases read : r.next? t with
    | none =>
      have short := next?_eq_none_iff.1 read
      simp only [readAll, read, Except.error.injEq]
      constructor
      · rintro rfl
        simpa using ⟨short, inside⟩
      · rintro ⟨_, _, before⟩
        by_contra later
        have first := before 1 (by omega)
        simp at first
        omega
    | some found =>
      obtain ⟨v, r'⟩ := found
      obtain ⟨_, rfl, fits⟩ := next?_eq_some read
      have step : r.readAll (t :: ts) = .error k ↔
          ∃ j, k = j + 1 ∧ readAll ⟨r.data, r.offset + t.width⟩ ts = .error j := by
        simp only [readAll, read]
        cases readAll ⟨r.data, r.offset + t.width⟩ ts <;> simp [eq_comm]
      rw [step]
      constructor
      · rintro ⟨j, rfl, stopped⟩
        obtain ⟨short, outside, before⟩ := (ih fits).1 stopped
        refine ⟨by simpa using short, by simpa [Nat.add_assoc] using outside, fun i hi => ?_⟩
        cases i with
        | zero => simpa using inside
        | succ i => simpa [Nat.add_assoc] using before i (by omega)
      · rintro ⟨short, outside, before⟩
        cases k with
        | zero =>
          simp at outside
          omega
        | succ k =>
          refine ⟨k, rfl, (ih fits).2 ⟨by simpa using short, by simpa [Nat.add_assoc] using outside, fun i hi => ?_⟩⟩
          simpa [Nat.add_assoc] using before (i + 1) (by omega)

/-- What is read is of the types that were asked for, and writes the bytes that were read. -/
theorem written_of_readAll {read : List (Field × Nat)} (h : r.readAll ts = .ok read) :
    read.map (fun x => x.1.type) = ts ∧
      written (read.map Prod.fst) = (r.data.drop r.offset).take (FieldType.total ts) := by
  induction ts generalizing r read with
  | nil =>
    cases h
    simp
  | cons t ts ih =>
    cases first : r.next? t with
    | none => simp [readAll, first] at h
    | some found =>
      obtain ⟨v, r'⟩ := found
      obtain ⟨front, rfl, _⟩ := next?_eq_some first
      cases others : readAll ⟨r.data, r.offset + t.width⟩ ts with
      | error k => simp [readAll, first, others] at h
      | ok read' =>
        simp only [readAll, first, others, Except.ok.injEq] at h
        subst h
        obtain ⟨types, bytes⟩ := ih others
        have width : (encode ⟨t, v⟩).length = t.width := length_encode _
        have taken : (encode ⟨t, v⟩ ++ r.data.drop (r.offset + t.width)).take (t.width + FieldType.total ts) =
            encode ⟨t, v⟩ ++ (r.data.drop (r.offset + t.width)).take (FieldType.total ts) := by
          rw [← width, List.take_length_add_append]
        simp only [List.map_cons, types, written_cons, bytes, front, FieldType.total_cons, taken, and_self]

/-- All fields are read if and only if their types take no more bytes than there are. -/
theorem exists_readAll_iff (bs : Bytes) (ts : List FieldType) :
    (∃ read, (start bs).readAll ts = .ok read) ↔ FieldType.total ts ≤ bs.length := by
  constructor
  · rintro ⟨read, h⟩
    obtain ⟨types, bytes⟩ := written_of_readAll h
    have length := length_written (read.map Prod.fst)
    rw [List.map_map, bytes, List.length_take, List.length_drop] at length
    have same : FieldType.total (read.map (type ∘ Prod.fst)) = FieldType.total ts := congrArg FieldType.total types
    simp only [start] at length
    omega
  · intro long
    cases h : (start bs).readAll ts with
    | ok read => exact ⟨read, rfl⟩
    | error k =>
      obtain ⟨_, outside, _⟩ := (readAll_eq_error_iff (Nat.zero_le _)).1 h
      have part := FieldType.total_take_le ts (k + 1)
      simp only [start] at outside
      omega

/-- Reading undoes writing and writing undoes reading, and reading goes past the end exactly where the widths do. -/
theorem undoes_writer (fs : List Field) (rest bs : Bytes) (ts : List FieldType) :
    ((start (written fs ++ rest)).readAll (fs.map type) = .ok (fs.zip (lengthsFrom 0 fs)) ∧
      ∀ k < fs.length, (lengthsFrom 0 fs)[k]? = some (written (fs.take (k + 1))).length) ∧
    (FieldType.total ts ≤ bs.length ↔ ∃ read, (start bs).readAll ts = .ok read ∧
      read.map (fun x => x.1.type) = ts ∧ written (read.map Prod.fst) = bs.take (FieldType.total ts)) ∧
    ((∃ k, (start bs).readAll ts = .error k) ↔ ∃ k ≤ ts.length, bs.length < FieldType.total (ts.take k)) ∧
    ∀ k, (start bs).readAll ts = .error k ↔ k < ts.length ∧ bs.length < FieldType.total (ts.take (k + 1)) ∧
      ∀ j ≤ k, FieldType.total (ts.take j) ≤ bs.length := by
  have stops (k : Nat) : (start bs).readAll ts = .error k ↔
      k < ts.length ∧ bs.length < FieldType.total (ts.take (k + 1)) ∧
        ∀ j ≤ k, FieldType.total (ts.take j) ≤ bs.length := by
    have whole : (start bs).readAll ts = .error k ↔ _ := readAll_eq_error_iff (Nat.zero_le _)
    simpa [start] using whole
  refine ⟨⟨readAll_written [] rest fs, fun k inside => ?_⟩, ?_, ?_, stops⟩
  · rw [getElem?_lengthsFrom 0 fs inside, Nat.zero_add]
  · rw [← exists_readAll_iff]
    constructor
    · rintro ⟨read, h⟩
      exact ⟨read, h, written_of_readAll h⟩
    · rintro ⟨read, h, _⟩
      exact ⟨read, h⟩
  · constructor
    · rintro ⟨k, stopped⟩
      obtain ⟨short, outside, _⟩ := (stops k).1 stopped
      exact ⟨k + 1, short, outside⟩
    · rintro ⟨k, _, outside⟩
      cases h : (start bs).readAll ts with
      | error j => exact ⟨j, rfl⟩
      | ok read =>
        have long := (exists_readAll_iff bs ts).1 ⟨read, h⟩
        have part := FieldType.total_take_le ts k
        omega

/-- The least significant byte comes first; of a field that is cut off nothing is read. -/
example : ((start [1, 0, 2, 0, 0, 0, 3, 0, 0, 0, 0, 0, 0, 0]).readAll [.u16, .u32, .u64] =
      .ok [(⟨.u16, 1⟩, 2), (⟨.u32, 2⟩, 6), (⟨.u64, 3⟩, 14)]) ∧
    (start [1, 0, 2, 0, 0]).readAll [.u16, .u32, .u64] = .error 1 := ⟨rfl, rfl⟩

end Reader

end Randomness
