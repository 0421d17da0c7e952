import Randomness.Proofs.Site

/-!
What addresses are hashed from. No two accounts are hashed from the same bytes, so two accounts share an address
only where the hash has a collision.
-/

namespace Randomness

/-- Two different byte strings have the same hash. -/
def Crypto.Collides [Crypto] (m n : Bytes) : Prop := m ≠ n ∧ Crypto.hash m = Crypto.hash n

namespace Site

variable [Crypto] {s t : Site} {a : Address} {b c : UInt8}

/-- The site's address is the hash of these bytes. -/
def HashedFrom (s : Site) (m : Bytes) : Prop := ∃ a b, s.address = .ok (a, b) ∧ m = s.preimage b

theorem collides_of_address (hs : s.address = .ok (a, b)) (ht : t.address = .ok (a, c)) (other : s ≠ t) :
    Crypto.Collides (s.preimage b) (t.preimage c) := by
  have first := (hash_of_address hs).1
  have second := (hash_of_address ht).1
  exact ⟨fun same => other (preimage_injective same).1, first.trans second.symm⟩

/-- Addresses are distinct exactly if nothing that they are hashed from collides. -/
theorem distinctAddresses_iff {keys : Set Address} : DistinctAddresses keys ↔
    ∀ (s t : Site) m n, s.Over keys → t.Over keys → s.HashedFrom m → t.HashedFrom n →
      ¬ Crypto.Collides m n := by
  constructor
  · intro distinct s t m n hs ht first second collides
    obtain ⟨a, b, ha, rfl⟩ := first
    obtain ⟨d, c, hd, rfl⟩ := second
    obtain ⟨apart, same⟩ := collides
    rw [(hash_of_address ha).1, (hash_of_address hd).1] at same
    subst same
    obtain rfl : s = t := distinct s t hs ht a b c ha hd
    rw [ha] at hd
    cases hd
    exact apart rfl
  · intro free s t hs ht a b c ha hd
    by_contra other
    exact free s t _ _ hs ht ⟨a, b, ha, rfl⟩ ⟨a, c, hd, rfl⟩ (collides_of_address ha hd other)

/-- The bytes that are hashed for an account's address name the account, its program and the bump. Hence two
accounts with one address, of whatever kinds, generations and programs, are a collision of the hash; and addresses
are distinct exactly as long as the hash has none among the bytes in use. -/
theorem accounts_apart :
    (∀ (p q : Place) (P Q : Address) (b c : UInt8),
      Derivation.preimage p.seeds b P = Derivation.preimage q.seeds c Q ↔ p = q ∧ P = Q ∧ b = c) ∧
    (∀ (p q : Place) (P Q a : Address) (b c : UInt8), p.address P = .ok (a, b) → q.address Q = .ok (a, c) →
      (p ≠ q ∨ P ≠ Q) →
        Crypto.Collides (Derivation.preimage p.seeds b P) (Derivation.preimage q.seeds c Q)) ∧
    ∀ keys, DistinctAddresses keys ↔
      ∀ (s t : Site) m n, s.Over keys → t.Over keys → s.HashedFrom m → t.HashedFrom n →
        ¬ Crypto.Collides m n := by
  refine ⟨?_, ?_, fun keys => distinctAddresses_iff⟩
  · intro p q P Q b c
    constructor
    · intro same
      obtain ⟨sites, bumps⟩ := preimage_injective (s := ⟨P, p⟩) (t := ⟨Q, q⟩) same
      obtain ⟨programs, places⟩ := Site.mk.inj sites
      exact ⟨places, programs, bumps⟩
    · rintro ⟨rfl, rfl, rfl⟩
      rfl
  · intro p q P Q a b c hp hq other
    refine collides_of_address (s := ⟨P, p⟩) (t := ⟨Q, q⟩) hp hq ?_
    intro same
    obtain ⟨programs, places⟩ := Site.mk.inj same
    exact other.elim (· places) (· programs)

end Site

namespace Recorded

/-- A hash that tells nothing apart. -/
@[reducible] def constant : Crypto where
  hash _ := Address.zero
  isOnCurve _ := false
  publicKey := Crypto.standard.publicKey
  sign := Crypto.standard.sign
  verify := Crypto.standard.verify

/-- Under a constant hash two accounts share their address, and are a collision. The recorded accounts are none, and
the next bump of one of them is hashed from other bytes. -/
theorem constant_collides :
    @Site.address constant (.legacyConfig program) = .ok (Address.zero, 255) ∧
    @Site.address constant (.subscription consumer 0) = .ok (Address.zero, 255) ∧
    @Crypto.Collides constant (Site.preimage (.legacyConfig program) 255)
      (Site.preimage (.subscription consumer 0) 255) ∧
    ¬ @Crypto.Collides crypto (Site.preimage (.legacyRequest program 0) 255)
      (Site.preimage (.wordsRequest program 0) 255) ∧
    Site.preimage (.legacyRequest program 0) 255 ≠ Site.preimage (.legacyRequest program 0) 254 := by
  have first : @Site.address constant (.legacyConfig program) = .ok (Address.zero, 255) := by decide +kernel
  have second : @Site.address constant (.subscription consumer 0) = .ok (Address.zero, 255) := by decide +kernel
  have inside (t : Site) : t.Over Set.univ := ⟨Set.mem_univ _, fun _ _ _ => Set.mem_univ _⟩
  obtain ⟨_, shared, _⟩ := @Site.accounts_apart constant
  obtain ⟨names, _, free⟩ := @Site.accounts_apart crypto
  have legacy := address_of addresses[4] (List.getElem_mem _)
  have words := address_of addresses[6] (List.getElem_mem _)
  refine ⟨first, second, shared _ _ _ _ _ _ _ first second (.inl (by decide)), ?_, ?_⟩
  · exact (free Set.univ).1 distinct _ _ _ _ (inside _) (inside _) ⟨_, _, legacy, rfl⟩ ⟨_, _, words, rfl⟩
  · intro same
    obtain ⟨_, _, bumps⟩ := (names _ _ _ _ _ _).1 same
    exact absurd bumps (by decide)

end Recorded

end Randomness
