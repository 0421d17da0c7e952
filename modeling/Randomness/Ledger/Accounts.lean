import Randomness.Address

/-!
The accounts of a ledger: finitely many addresses with their data.
-/

namespace Randomness

structure Accounts where
  entries : List (Address × Bytes)
  nodup : (entries.map Prod.fst).Nodup

namespace Accounts

def empty : Accounts := ⟨[], List.nodup_nil⟩

def get? (s : Accounts) (a : Address) : Option Bytes := s.entries.lookup a

def erase (s : Accounts) (a : Address) : Accounts where
  entries := s.entries.filter fun e => e.1 ≠ a
  nodup := s.nodup.sublist (List.filter_sublist.map _)

/-- Creates the account or replaces its data. -/
def insert (s : Accounts) (a : Address) (data : Bytes) : Accounts where
  entries := (a, data) :: (s.erase a).entries
  nodup := by
    refine List.nodup_cons.2 ⟨?_, (s.erase a).nodup⟩
    simp [erase]

theorem get?_empty (a : Address) : empty.get? a = none := rfl

theorem get?_erase (s : Accounts) (a b : Address) :
    (s.erase a).get? b = if b = a then none else s.get? b := by
  unfold get? erase
  dsimp only
  induction s.entries with
  | nil => simp
  | cons e es ih =>
    by_cases ha : e.1 = a
    · rw [List.filter_cons_of_neg (by simp [ha]), ih, List.lookup_cons]
      by_cases hb : b = a
      · simp [hb]
      · have hne : (b == e.1) = false := by simpa [ha] using hb
        simp [hb, hne]
    · rw [List.filter_cons_of_pos (by simp [ha]), List.lookup_cons, List.lookup_cons, ih]
      by_cases hb : b = e.1
      · simp [hb, ha]
      · have hne : (b == e.1) = false := by simpa using hb
        simp [hne]

theorem get?_insert (s : Accounts) (a b : Address) (data : Bytes) :
    (s.insert a data).get? b = if b = a then some data else s.get? b := by
  unfold get? insert
  rw [List.lookup_cons]
  by_cases hb : b = a
  · simp [hb]
  · have hne : (b == a) = false := by simpa using hb
    have h := get?_erase s a b
    unfold get? at h
    simp [hne, hb, h]

end Accounts

end Randomness
