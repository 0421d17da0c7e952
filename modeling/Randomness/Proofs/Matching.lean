import Randomness.Proofs.Registry

/-!
When the accounts of a ledger are exactly the records of a registry, encoded at the addresses of
their sites; and what the coordinator's elementary steps come to then.
-/

namespace Randomness

/-- Both succeed with related results, or both fail. -/
inductive Agrees (R : α → β → Prop) : Option α → Except ε β → Prop where
  | done {a : α} {b : β} (h : R a b) : Agrees R (some a) (.ok b)
  | failed (e : ε) : Agrees R none (.error e)

namespace Agrees

theorem bind {R : α → β → Prop} {S : γ → δ → Prop} {m : Option α} {n : Except ε β} {f : α → Option γ}
    {g : β → Except ε δ} (h : Agrees R m n) (next : ∀ a b, R a b → Agrees S (f a) (g b)) :
    Agrees S (m >>= f) (n >>= g) := by
  cases h with
  | done h => exact next _ _ h
  | failed e => exact failed e

theorem mapError {R : α → β → Prop} {m : Option α} {n : Except ε β} (h : Agrees R m n)
    (f : ε → ε') : Agrees R m (n.mapError f) := by
  cases h with
  | done h => exact done h
  | failed e => exact failed (f e)

theorem toOption (n : Except ε β) : Agrees (fun a b => a = b) n.toOption n := by
  cases n with
  | ok b => exact done rfl
  | error e => exact failed e

/-- A condition of one side decides about a step of the other. -/
theorem ofGuard {p : Prop} [Decidable p] {R : Unit → β → Prop} {n : Except ε β}
    (pass : p → ∃ b, n = .ok b ∧ R () b) (stop : ¬ p → ∃ e, n = .error e) : Agrees R (guard p) n := by
  by_cases h : p
  · obtain ⟨b, rfl, hb⟩ := pass h
    have passed : (guard p : Option Unit) = some () := if_pos h
    rw [passed]
    exact done hb
  · obtain ⟨e, rfl⟩ := stop h
    have shut : (guard p : Option Unit) = none := if_neg h
    rw [shut]
    exact failed e

theorem require {p q : Prop} [Decidable p] [Decidable q] (h : p ↔ q) (r : Refusal) :
    Agrees (fun _ _ => p) (guard p) (Coordinator.require q r) := by
  apply ofGuard
  · intro hp
    exact ⟨(), if_pos (h.1 hp), hp⟩
  · intro hp
    exact ⟨.refused r, if_neg fun hq => hp (h.2 hq)⟩

theorem accepts_iff {R : α → β → Prop} {m : Option α} {n : Except ε β} (h : Agrees R m n) :
    (∃ b, n = .ok b) ↔ ∃ a, m = some a := by
  cases h with
  | done h => simp
  | failed e => simp

theorem related {R : α → β → Prop} {a : α} {b : β} (h : Agrees (ε := ε) R (some a) (.ok b)) : R a b := by
  cases h with
  | done h => exact h

end Agrees

namespace Site

/-- The record names its own place, and the bump of its address. -/
def Owns [Crypto] : (s : Site) → s.kind.Record → Prop
  | s@⟨_, .config .legacy⟩, r => r.bump = s.bump
  | s@⟨_, .config .subscription⟩, r => r.bump = s.bump
  | s@⟨_, .subscription id⟩, r => r.id = id ∧ r.bump = s.bump
  | s@⟨_, .consumer id c⟩, r => r.subscriptionId = id ∧ r.programId = c ∧ r.bump = s.bump
  | s@⟨_, .request .legacy id⟩, r => r.requestId = id ∧ r.bump = s.bump
  | s@⟨_, .request .subscription id⟩, r => r.requestId = id ∧ r.bump = s.bump

end Site

/-- The accounts are exactly the registry's records at their sites' addresses. -/
structure Matches [Crypto] (s : Accounts) (σ : Registry) : Prop where
  stored : ∀ t r, σ t = some r → ∃ a b, t.address = .ok (a, b) ∧ s.get? a = some (t.kind.encode r)
  listed : ∀ a data, s.get? a = some data → ∃ t r b, σ t = some r ∧ t.address = .ok (a, b)
  owned : ∀ t r, σ t = some r → t.Owns r

/-- Every record is at a site over the given programs and consumers. -/
def Registry.Over (keys : Set Address) (σ : Registry) : Prop := ∀ t r, σ t = some r → t.Over keys

namespace Registry

theorem Over.put {keys : Set Address} {σ : Registry} (h : σ.Over keys) {t : Site} (ht : t.Over keys)
    (r : t.kind.Record) : (σ.put t r).Over keys := by
  intro u q hu
  by_cases e : u = t
  · rw [e]
    exact ht
  · rw [put_of_ne σ r e] at hu
    exact h u q hu

theorem Over.drop {keys : Set Address} {σ : Registry} (h : σ.Over keys) (t : Site) :
    (σ.drop t).Over keys := by
  intro u q hu
  by_cases e : u = t
  · subst e
    simp at hu
  · rw [drop_of_ne σ e] at hu
    exact h u q hu

end Registry

/-- Accounts and registry match, over programs and consumers whose sites have distinct addresses. -/
structure Fits [Crypto] (keys : Set Address) (s : Accounts) (σ : Registry) : Prop extends Matches s σ where
  distinct : DistinctAddresses keys
  inside : σ.Over keys

section

variable [Crypto] {keys : Set Address} {s : Accounts} {σ : Registry} {t u : Site} {a : Address} {b : UInt8}

theorem Matches.empty : Matches Accounts.empty Registry.empty where
  stored := by
    intro t r h
    cases h
  listed := by
    intro a data h
    cases h
  owned := by
    intro t r h
    cases h

/-- A site without an address has no record. -/
theorem Matches.vacant (h : Matches s σ) {e : DerivationError} (ha : t.address = .error e) : σ t = none := by
  apply Option.eq_none_iff_forall_ne_some.2
  intro r hr
  obtain ⟨a, b, derived, _⟩ := h.stored t r hr
  rw [ha] at derived
  cases derived

/-- Accounts stay whose sites keep their records. -/
theorem Matches.get?_eq {s' : Accounts} {τ : Registry} (h : Matches s σ) (h' : Matches s' τ) {c : Address}
    (others : ∀ u d, u.address = .ok (c, d) → τ u = σ u) : s'.get? c = s.get? c := by
  have stays {s s' : Accounts} {σ τ : Registry} (h : Matches s σ) (h' : Matches s' τ)
      (others : ∀ u d, u.address = .ok (c, d) → τ u = σ u) {data : Bytes} (found : s.get? c = some data) :
      s'.get? c = some data := by
    obtain ⟨u, r, d, hu, hd⟩ := h.listed c data found
    obtain ⟨_, _, hd', stored⟩ := h.stored u r hu
    rw [hd] at hd'
    cases hd'
    rw [found] at stored
    obtain ⟨_, _, hd', stored'⟩ := h'.stored u r ((others u d hd).trans hu)
    rw [hd] at hd'
    cases hd'
    rw [stored, stored']
  apply Option.ext
  intro data
  exact ⟨stays h' h fun u d hd => (others u d hd).symm, stays h h' others⟩

/-- If only one site changes, only the account at its address does. -/
theorem Matches.get?_eq_of_ne {s' : Accounts} {τ : Registry} (h : Matches s σ) (h' : Matches s' τ)
    (ha : t.address = .ok (a, b)) (others : ∀ u, u ≠ t → τ u = σ u) {c : Address} (hc : c ≠ a) :
    s'.get? c = s.get? c := by
  refine h.get?_eq h' fun u d hd => others u ?_
  rintro rfl
  rw [ha] at hd
  cases hd
  exact hc rfl

namespace Fits

/-- What an account holds, by its site. -/
theorem get?_eq (hf : Fits keys s σ) (ht : t.Over keys) (ha : t.address = .ok (a, b)) :
    s.get? a = (σ t).map t.kind.encode := by
  cases hr : σ t with
  | some r =>
    obtain ⟨a', b', ha', hs⟩ := hf.stored t r hr
    rw [ha] at ha'
    cases ha'
    exact hs
  | none =>
    cases hs : s.get? a with
    | none => rfl
    | some data =>
      obtain ⟨u, r, c, hu, hua⟩ := hf.listed a data hs
      have same : t = u := hf.distinct t u ht (hf.inside u r hu) a b c ha hua
      subst same
      rw [hr] at hu
      cases hu

theorem store (hf : Fits keys s σ) (ht : t.Over keys) (ha : t.address = .ok (a, b)) {r : t.kind.Record}
    (hr : t.Owns r) : Fits keys (Coordinator.store t.kind s a r) (σ.put t r) where
  stored := by
    intro u q hu
    by_cases e : u = t
    · subst e
      rw [Registry.put_self] at hu
      cases hu
      exact ⟨a, b, ha, by rw [Coordinator.store, Accounts.get?_insert, if_pos rfl]⟩
    · rw [Registry.put_of_ne σ r e] at hu
      obtain ⟨a', b', hua, hs⟩ := hf.stored u q hu
      have apart : a' ≠ a := by
        intro same
        subst same
        exact e (hf.distinct u t (hf.inside u q hu) ht _ _ _ hua ha)
      exact ⟨a', b', hua, by rw [Coordinator.store, Accounts.get?_insert, if_neg apart, hs]⟩
  listed := by
    intro a' data h
    rw [Coordinator.store, Accounts.get?_insert] at h
    split at h
    · next e =>
      subst e
      exact ⟨t, r, b, Registry.put_self .., ha⟩
    · next e =>
      obtain ⟨u, q, c, hu, hua⟩ := hf.listed a' data h
      have apart : u ≠ t := by
        intro same
        subst same
        rw [ha] at hua
        cases hua
        exact e rfl
      exact ⟨u, q, c, by rw [Registry.put_of_ne σ r apart, hu], hua⟩
  owned := by
    intro u q hu
    by_cases e : u = t
    · subst e
      rw [Registry.put_self] at hu
      cases hu
      exact hr
    · rw [Registry.put_of_ne σ r e] at hu
      exact hf.owned u q hu
  distinct := hf.distinct
  inside := hf.inside.put ht r

theorem erase (hf : Fits keys s σ) (ht : t.Over keys) (ha : t.address = .ok (a, b)) :
    Fits keys (s.erase a) (σ.drop t) where
  stored := by
    intro u q hu
    have e : u ≠ t := by
      intro same
      subst same
      simp at hu
    rw [Registry.drop_of_ne σ e] at hu
    obtain ⟨a', b', hua, hs⟩ := hf.stored u q hu
    have apart : a' ≠ a := by
      intro same
      subst same
      exact e (hf.distinct u t (hf.inside u q hu) ht _ _ _ hua ha)
    exact ⟨a', b', hua, by rw [Accounts.get?_erase, if_neg apart, hs]⟩
  listed := by
    intro a' data h
    rw [Accounts.get?_erase] at h
    split at h
    · cases h
    · next e =>
      obtain ⟨u, q, c, hu, hua⟩ := hf.listed a' data h
      have apart : u ≠ t := by
        intro same
        subst same
        rw [ha] at hua
        cases hua
        exact e rfl
      exact ⟨u, q, c, by rw [Registry.drop_of_ne σ apart, hu], hua⟩
  owned := by
    intro u q hu
    have e : u ≠ t := by
      intro same
      subst same
      simp at hu
    rw [Registry.drop_of_ne σ e] at hu
    exact hf.owned u q hu
  distinct := hf.distinct
  inside := hf.inside.drop t

/-- Loading an account reads the record at its site. -/
theorem load (hf : Fits keys s σ) (ht : t.Over keys) (ha : t.address = .ok (a, b)) :
    Agrees (fun r q => q = r ∧ σ t = some r ∧ t.Owns r) (σ.find t) (Coordinator.load t.kind s a) := by
  have held := hf.get?_eq ht ha
  unfold Coordinator.load
  cases hr : σ t with
  | none =>
    rw [held, hr, Registry.find, hr]
    exact .failed _
  | some r =>
    rw [held, hr, Registry.find, hr]
    by_cases legible : t.kind.Legible r
    · have read := Kind.decode_encode t.kind r legible
      rw [Option.filter_some, if_pos (decide_eq_true legible)]
      simp only [Option.map_some, read]
      exact .done ⟨rfl, rfl, hf.owned t r hr⟩
    · obtain ⟨e, read⟩ := Kind.decode_encode_error t.kind r legible
      rw [Option.filter_some, if_neg (by simpa using legible)]
      simp only [Option.map_some, read]
      exact .failed _

/-- Only a vacant site can be taken. -/
theorem create (hf : Fits keys s σ) (ht : t.Over keys) (ha : t.address = .ok (a, b)) (r : t.kind.Record) :
    Agrees (fun _ s' => s' = Coordinator.store t.kind s a r ∧ σ t = none) (guard (σ t).isNone)
      (Coordinator.create t.kind s a r) := by
  have held := hf.get?_eq ht ha
  unfold Coordinator.create
  apply Agrees.ofGuard
  · intro vacant
    have none := Option.isNone_iff_eq_none.1 vacant
    rw [held, none]
    exact ⟨_, rfl, rfl, rfl⟩
  · intro taken
    obtain ⟨q, hq⟩ := Option.ne_none_iff_exists'.1 fun h => taken (Option.isNone_iff_eq_none.2 h)
    rw [held, hq]
    exact ⟨_, rfl⟩

end Fits

theorem expect_eq (a : Address) (t : Site) :
    Coordinator.expect a t.place t.program = match t.address with
      | .ok (a', b') => if a' = a then .ok (a', b') else .error (.refused (.wrongAddress a' a))
      | .error e => .error (.refused (.derivation e)) := by
  unfold Coordinator.expect Site.address
  cases t.place.address t.program with
  | error e => rfl
  | ok found =>
    obtain ⟨a', b'⟩ := found
    change (Coordinator.require (a' = a) (.wrongAddress a' a) >>= fun _ => .ok (a', b')) = _
    unfold Coordinator.require
    by_cases h : a' = a
    · rw [if_pos h]
      exact (if_pos h).symm
    · rw [if_neg h]
      exact (if_neg h).symm

theorem expect_self (ha : t.address = .ok (a, b)) :
    Coordinator.expect a t.place t.program = .ok (a, t.bump) := by
  rw [expect_eq, ha, Site.bump_of_address ha]
  exact if_pos rfl

/-- The expected site has the address that was derived for another one only if it is the same. -/
theorem DistinctAddresses.expect (hd : DistinctAddresses keys) (hu : u.Over keys) (ht : t.Over keys)
    (ha : u.address = .ok (a, b)) {p : Prop} [Decidable p] (hp : p ↔ t = u) :
    Agrees (fun _ q => q = (a, u.bump) ∧ p) (guard p) (Coordinator.expect a t.place t.program) := by
  apply Agrees.ofGuard
  · intro h
    obtain rfl := hp.1 h
    exact ⟨_, expect_self ha, rfl, h⟩
  · intro other
    rw [expect_eq]
    cases h : t.address with
    | error f => exact ⟨_, rfl⟩
    | ok found =>
      have apart : found.1 ≠ a := by
        intro same
        subst same
        exact other (hp.2 (hd t u ht hu _ _ _ h ha))
      exact ⟨_, if_neg apart⟩

end

end Randomness
