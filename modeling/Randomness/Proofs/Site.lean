import Mathlib.Data.Set.Basic
import Randomness.Account
import Randomness.Derivation
import Randomness.Proofs.Bump

/-!
Sites: the accounts that a coordinator can have, each a place under a program. What is hashed for a
site's address determines the site, so as long as the hash has no collision among the sites in use,
their addresses are distinct.
-/

namespace Randomness

namespace LittleEndian

theorem encode_injective {w m n : Nat} (hm : m < size w) (hn : n < size w)
    (h : encode w m = encode w n) : m = n := by
  have e := congrArg decode h
  rwa [decode_encode_of_lt hm, decode_encode_of_lt hn] at e

end LittleEndian

namespace Place

theorem idSeed_injective {m n : UInt64} (h : idSeed m = idSeed n) : m = n := by
  have hm : m.toNat < LittleEndian.size 8 := m.toNat_lt
  have hn : n.toNat < LittleEndian.size 8 := n.toNat_lt
  exact UInt64.toNat_inj.1 (LittleEndian.encode_injective hm hn h)

@[simp] theorem length_idSeed (id : UInt64) : (idSeed id).length = 8 :=
  LittleEndian.length_encode ..

/-- The six shapes of seeds have six different lengths. -/
theorem seeds_injective {p q : Place} (h : p.seeds.flatten = q.seeds.flatten) : p = q := by
  have length (s : String) (n : Nat) (hs : s.toList.length = n) : (Text.ascii s).length = n := by
    rw [Text.ascii, List.length_map, hs]
  have vrf := length "vrf-config" 10 rfl
  have coordinator := length "coordinator-config" 18 rfl
  have sub := length "subscription" 12 rfl
  have consumer := length "consumer" 8 rfl
  have legacy := length "request" 7 rfl
  have words := length "vrf-request" 11 rfl
  have block (b : Address) : b.bytes.length = 32 := b.length_eq
  have same := congrArg List.length h
  rcases p with ⟨_ | _⟩ | i | ⟨i, b⟩ | ⟨_ | _, i⟩ <;> rcases q with ⟨_ | _⟩ | j | ⟨j, c⟩ | ⟨_ | _, j⟩ <;>
    simp only [seeds, configSeed, requestSeed, List.flatten_cons, List.flatten_nil, List.append_nil,
      List.length_append, length_idSeed, vrf, coordinator, sub, consumer, legacy, words, block] at same <;>
    first
    | rfl
    | exact absurd same (by decide)
    | skip
  case subscription.subscription =>
    have tails := (List.append_inj h rfl).2
    have ids : i = j := idSeed_injective (by simpa using tails)
    rw [ids]
  case consumer.consumer =>
    obtain ⟨ids, consumers⟩ := List.append_inj (List.append_inj h rfl).2 (by simp)
    have blocks : b = c := Block.ext (by simpa using consumers)
    rw [idSeed_injective ids, blocks]
  case request.legacy.request.legacy =>
    have tails := (List.append_inj h rfl).2
    have ids : i = j := idSeed_injective (by simpa using tails)
    rw [ids]
  case request.subscription.request.subscription =>
    have tails := (List.append_inj h rfl).2
    have ids : i = j := idSeed_injective (by simpa using tails)
    rw [ids]

/-- The kind of record at a place. -/
abbrev kind : Place → Kind
  | config .legacy => .legacyConfig
  | config .subscription => .coordinatorConfig
  | subscription _ => .subscription
  | consumer _ _ => .consumerRegistration
  | request .legacy _ => .legacyRequest
  | request .subscription _ => .wordsRequest

end Place

/-- A place under a program. -/
structure Site where
  program : Address
  place : Place
  deriving DecidableEq

namespace Site

abbrev legacyConfig (program : Address) : Site := ⟨program, .config .legacy⟩
abbrev coordinatorConfig (program : Address) : Site := ⟨program, .config .subscription⟩
abbrev subscription (program : Address) (id : UInt64) : Site := ⟨program, .subscription id⟩
abbrev registration (program : Address) (id : UInt64) (consumer : Address) : Site :=
  ⟨program, .consumer id consumer⟩
abbrev legacyRequest (program : Address) (id : UInt64) : Site := ⟨program, .request .legacy id⟩
abbrev wordsRequest (program : Address) (id : UInt64) : Site := ⟨program, .request .subscription id⟩

abbrev kind (s : Site) : Kind := s.place.kind

/-- The program, and the consumer if there is one, are among `keys`. -/
def Over (keys : Set Address) (s : Site) : Prop :=
  s.program ∈ keys ∧ ∀ id c, s.place = .consumer id c → c ∈ keys

@[simp] theorem over_config {keys : Set Address} {P : Address} {g : Generation} :
    Over keys ⟨P, .config g⟩ ↔ P ∈ keys := by
  simp [Over]

@[simp] theorem over_subscription {keys : Set Address} {P : Address} {id : UInt64} :
    Over keys ⟨P, .subscription id⟩ ↔ P ∈ keys := by
  simp [Over]

@[simp] theorem over_consumer {keys : Set Address} {P c : Address} {id : UInt64} :
    Over keys ⟨P, .consumer id c⟩ ↔ P ∈ keys ∧ c ∈ keys := by
  simp [Over]

@[simp] theorem over_request {keys : Set Address} {P : Address} {g : Generation} {id : UInt64} :
    Over keys ⟨P, .request g id⟩ ↔ P ∈ keys := by
  simp [Over]

/-- What is hashed for a site's address with a bump. -/
def preimage (s : Site) (bump : UInt8) : Bytes := Derivation.preimage s.place.seeds bump s.program

theorem preimage_injective {s t : Site} {b c : UInt8} (h : s.preimage b = t.preimage c) :
    s = t ∧ b = c := by
  obtain ⟨P, p⟩ := s
  obtain ⟨Q, q⟩ := t
  have tails : (b :: P.bytes ++ Derivation.marker).length = (c :: Q.bytes ++ Derivation.marker).length := by
    simp [P.length_eq, Q.length_eq]
  obtain ⟨seeds, rest⟩ := List.append_inj' (by simpa [preimage, Derivation.preimage] using h) tails
  obtain ⟨bumps, programs⟩ := List.append_inj' rest rfl |>.1 |> List.cons.inj
  rw [Place.seeds_injective seeds, Block.ext programs]
  exact ⟨rfl, bumps⟩

section

variable [Crypto]

def address (s : Site) : Except DerivationError (Address × UInt8) := s.place.address s.program

/-- The bump of a site's address. -/
def bump (s : Site) : UInt8 :=
  match s.address with
  | .ok (_, b) => b
  | .error _ => 0

theorem bump_of_address {s : Site} {a : Address} {b : UInt8} (h : s.address = .ok (a, b)) :
    s.bump = b := by
  rw [bump, h]

/-- An address is the hash of its site's preimage, and no point of the curve. -/
theorem hash_of_address {s : Site} {a : Address} {b : UInt8} (h : s.address = .ok (a, b)) :
    Crypto.hash (s.preimage b) = a ∧ Crypto.isOnCurve a = false := by
  obtain ⟨_, canonical⟩ := Derivation.derive_eq_ok_iff.1 h
  have off := canonical.off
  rw [Derivation.OnCurve, canonical.hash] at off
  exact ⟨canonical.hash, by simpa using off⟩

end

end Site

/-- No two sites over the given programs and consumers share an address. -/
def DistinctAddresses [Crypto] (keys : Set Address) : Prop :=
  ∀ s t : Site, s.Over keys → t.Over keys →
    ∀ a b c, s.address = .ok (a, b) → t.address = .ok (a, c) → s = t

/-!
The first accounts of one program, with the addresses that SHA-256 gives them: an instance in which
addresses are distinct over all programs and consumers, because no other site has one.
-/

namespace Recorded

def program : Address := ⟨7 :: List.replicate 31 0, rfl⟩

def consumer : Address := ⟨9 :: List.replicate 31 0, rfl⟩

def addresses : List (Place × Address) :=
  [(.config .legacy, ⟨[204, 107, 45, 28, 112, 180, 199, 25, 135, 128, 35, 240, 69, 155, 149, 50, 202, 72,
      184, 158, 137, 60, 80, 15, 239, 154, 33, 60, 12, 58, 104, 232], rfl⟩),
    (.config .subscription, ⟨[140, 103, 35, 166, 118, 179, 198, 32, 5, 231, 227, 216, 47, 199, 45, 129, 231,
      247, 244, 100, 213, 12, 81, 106, 151, 160, 225, 84, 193, 12, 120, 0], rfl⟩),
    (.subscription 0, ⟨[129, 183, 132, 66, 56, 17, 233, 148, 214, 53, 75, 224, 174, 180, 95, 160, 221, 224,
      248, 235, 226, 141, 86, 27, 16, 136, 70, 21, 252, 98, 40, 172], rfl⟩),
    (.consumer 0 consumer, ⟨[0, 125, 77, 12, 117, 73, 190, 207, 25, 23, 151, 138, 143, 18, 74, 95, 49, 134,
      133, 37, 113, 60, 16, 1, 122, 102, 166, 183, 94, 119, 214, 98], rfl⟩),
    (.request .legacy 0, ⟨[81, 113, 151, 250, 254, 159, 27, 108, 136, 125, 100, 31, 92, 41, 103, 74, 74, 249,
      138, 219, 23, 228, 174, 123, 76, 25, 88, 216, 117, 58, 142, 215], rfl⟩),
    (.request .legacy 1, ⟨[204, 170, 60, 119, 13, 178, 183, 28, 86, 128, 55, 111, 137, 30, 216, 137, 101, 16,
      146, 39, 196, 110, 124, 241, 75, 157, 144, 14, 252, 221, 248, 30], rfl⟩),
    (.request .subscription 0, ⟨[169, 150, 143, 72, 19, 115, 142, 97, 124, 216, 198, 201, 10, 29, 203, 160,
      16, 89, 58, 252, 212, 223, 186, 244, 54, 129, 187, 239, 52, 222, 194, 90], rfl⟩),
    (.request .subscription 1, ⟨[62, 136, 202, 46, 247, 74, 231, 205, 228, 97, 124, 82, 94, 236, 75, 209, 210,
      149, 253, 235, 109, 163, 220, 137, 6, 181, 99, 31, 76, 91, 244, 103], rfl⟩)]

/-- The standard functions, with hash and curve restricted to what the addresses need. -/
@[reducible] def crypto : Crypto where
  hash bs := ((addresses.find? fun e => Site.preimage ⟨program, e.1⟩ 255 = bs).map Prod.snd).getD Address.zero
  isOnCurve a := !(addresses.map Prod.snd).contains a
  publicKey := Crypto.standard.publicKey
  sign := Crypto.standard.sign
  verify := Crypto.standard.verify

set_option maxRecDepth 100000 in
/-- On the recorded sites hash and curve are the standard ones. -/
theorem genuine : ∀ e ∈ addresses, Crypto.standard.hash (Site.preimage ⟨program, e.1⟩ 255) = e.2 ∧
    Crypto.standard.isOnCurve e.2 = false := by
  decide +kernel

theorem of_address {s : Site} {a : Address} {b : UInt8} (h : @Site.address crypto s = .ok (a, b)) :
    ∃ e ∈ addresses, s = ⟨program, e.1⟩ ∧ a = e.2 := by
  obtain ⟨hash, off⟩ := @Site.hash_of_address crypto s a b h
  change ((addresses.find? fun e => Site.preimage ⟨program, e.1⟩ 255 = s.preimage b).map Prod.snd).getD
    Address.zero = a at hash
  change (!(addresses.map Prod.snd).contains a) = false at off
  cases found : addresses.find? fun e => Site.preimage ⟨program, e.1⟩ 255 = s.preimage b with
  | none =>
    rw [found] at hash
    subst hash
    exact absurd off (by decide)
  | some e =>
    rw [found] at hash
    have same := List.find?_some found
    have site := (Site.preimage_injective (of_decide_eq_true same)).1
    exact ⟨e, List.mem_of_find?_eq_some found, site.symm, hash.symm⟩

theorem distinct : @DistinctAddresses crypto Set.univ := by
  intro s t _ _ a b c hs ht
  obtain ⟨e, he, rfl, rfl⟩ := of_address hs
  obtain ⟨f, hf, rfl, same⟩ := of_address ht
  have nodup : ∀ e ∈ addresses, ∀ f ∈ addresses, e.2 = f.2 → e.1 = f.1 := by decide
  rw [nodup e he f hf same]

theorem address_of : ∀ e ∈ addresses, @Site.address crypto ⟨program, e.1⟩ = .ok (e.2, 255) := by
  decide +kernel

end Recorded

end Randomness
