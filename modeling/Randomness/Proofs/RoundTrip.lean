import Randomness.Account.Layout

/-!
Records read back from their own bytes. A record is legible if its kind allows its status and its
number of callback accounts; the bytes of a legible record give it back, those of another one are
refused.
-/

namespace Randomness

theorem Bytes.slice_append (a : Block n) (b : Block m) (rest : Bytes)
    (h : n + m ≤ (a.bytes ++ (b.bytes ++ rest)).length) :
    Bytes.slice (a.bytes ++ (b.bytes ++ rest)) n m h = b := by
  have ha := a.length_eq
  have hb := b.length_eq
  ext1
  simp [Bytes.slice, ha, hb]

theorem Bytes.slice?_append (a : Block n) (b : Block m) (rest : Bytes) :
    Bytes.slice? (a.bytes ++ (b.bytes ++ rest)) n m = some b := by
  have fits : n + m ≤ (a.bytes ++ (b.bytes ++ rest)).length := by
    rw [List.length_append, List.length_append, a.length_eq, b.length_eq]
    omega
  rw [Bytes.slice?, dif_pos fits]
  exact congrArg some (Bytes.slice_append a b rest fits)

theorem Bytes.slice_front (a : Block n) (rest : Bytes) (h : 0 + n ≤ (a.bytes ++ rest).length) :
    Bytes.slice (a.bytes ++ rest) 0 n h = a := by
  have ha := a.length_eq
  ext1
  simp [Bytes.slice, ha]

namespace Kind

/-- Whether a record's own bytes are accepted. -/
def Legible : (k : Kind) → k.Record → Prop
  | wordsRequest, r => r.status ≠ .consumed ∧ r.numCallbackAccounts.toNat ≤ maxCallbackAccounts
  | compressedRequest, r => r.status ≠ .consumed
  | _, _ => True

instance (k : Kind) (r : k.Record) : Decidable (k.Legible r) := by
  cases k <;> unfold Legible <;> infer_instance

theorem length_encodeBody (k : Kind) (r : k.Record) : (k.encodeBody r).length = k.bodySize :=
  Codec.length_encode ..

theorem length_encode (k : Kind) (r : k.Record) : (k.encode r).length = k.size := by
  rw [encode, List.length_append, length_encodeBody, k.discriminator.length_eq, size]

/-- What is left of decoding a record's own bytes is the check of its values. -/
theorem decode_encode_append (k : Kind) (r : k.Record) (rest : Bytes) :
    k.decode (k.encode r ++ rest) = k.layout.ofFields (k.layout.fields r) := by
  have split : k.encode r ++ rest =
      k.discriminator.bytes ++ ((k.layout.codec.write (k.layout.fields r)).bytes ++ rest) := by
    rw [encode, List.append_assoc]
    rfl
  have long : 8 + k.bodySize ≤ (k.encode r ++ rest).length := by
    rw [List.length_append, length_encode, size]
    omega
  have front : Bytes.slice (k.encode r ++ rest) 0 8 (by omega) = k.discriminator := by
    simp only [split]
    exact Bytes.slice_front ..
  have body : Bytes.slice (k.encode r ++ rest) 8 k.bodySize long =
      k.layout.codec.write (k.layout.fields r) := by
    simp only [split]
    exact Bytes.slice_append ..
  rw [decode, dif_pos long]
  simp only [front, body, if_true, Codec.read_write]

theorem readStatus_code (k : Kind) (s : RequestStatus) (h : s = .consumed → k = .legacyRequest) :
    Layout.readStatus k s.code = .ok s := by
  cases s with
  | pending => rfl
  | fulfilled => rfl
  | consumed => rw [h rfl]; rfl

theorem ofFields_fields (k : Kind) (r : k.Record) (h : k.Legible r) :
    k.layout.ofFields (k.layout.fields r) = .ok r := by
  cases k with
  | legacyConfig | coordinatorConfig | subscription | consumerRegistration => rfl
  | legacyRequest =>
    have status := readStatus_code .legacyRequest r.status fun _ => rfl
    simp only [layout, Layout.legacyRequest, status]
    rfl
  | wordsRequest =>
    obtain ⟨hs, hn⟩ := h
    have status := readStatus_code .wordsRequest r.status fun e => absurd e hs
    have slots : #v[r.callbackAccounts[0], r.callbackAccounts[1], r.callbackAccounts[2],
        r.callbackAccounts[3]] = r.callbackAccounts := by
      ext i hi
      match i, hi with
      | 0, _ | 1, _ | 2, _ | 3, _ => rfl
    simp only [layout, Layout.wordsRequest, status, slots]
    exact if_neg (by omega)
  | compressedRequest =>
    have status := readStatus_code .compressedRequest r.status fun e => absurd e h
    simp only [layout, Layout.compressedRequest, status]
    rfl

theorem ofFields_fields_error (k : Kind) (r : k.Record) (h : ¬ k.Legible r) :
    ∃ e, k.layout.ofFields (k.layout.fields r) = .error e := by
  cases k with
  | legacyConfig | coordinatorConfig | subscription | consumerRegistration | legacyRequest =>
    exact absurd trivial h
  | wordsRequest =>
    by_cases hs : r.status = .consumed
    · refine ⟨.invalidStatus .wordsRequest 2, ?_⟩
      simp only [layout, Layout.wordsRequest, hs]
      rfl
    · have status := readStatus_code .wordsRequest r.status fun e => absurd e hs
      have hn : maxCallbackAccounts < r.numCallbackAccounts.toNat :=
        Nat.lt_of_not_le fun few => h ⟨hs, few⟩
      refine ⟨.invalidCallbackCount .wordsRequest r.numCallbackAccounts maxCallbackAccounts, ?_⟩
      simp only [layout, Layout.wordsRequest, status]
      exact if_pos hn
  | compressedRequest =>
    have hs : r.status = .consumed := Decidable.of_not_not h
    refine ⟨.invalidStatus .compressedRequest 2, ?_⟩
    simp only [layout, Layout.compressedRequest, hs]
    rfl

theorem decode_encode (k : Kind) (r : k.Record) (h : k.Legible r) : k.decode (k.encode r) = .ok r := by
  have plain := decode_encode_append k r []
  rw [List.append_nil] at plain
  rw [plain, ofFields_fields k r h]

theorem decode_encode_error (k : Kind) (r : k.Record) (h : ¬ k.Legible r) :
    ∃ e, k.decode (k.encode r) = .error e := by
  have plain := decode_encode_append k r []
  rw [List.append_nil] at plain
  rw [plain]
  exact ofFields_fields_error k r h

theorem encode_injective (k : Kind) {r t : k.Record} (hr : k.Legible r) (h : k.encode r = k.encode t)
    (ht : k.Legible t) : r = t := by
  have same := decode_encode k r hr
  rw [h, decode_encode k t ht] at same
  exact (Except.ok.inj same).symm

end Kind

end Randomness
