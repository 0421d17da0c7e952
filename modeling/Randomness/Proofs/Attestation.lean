import Randomness.Proofs.Annals
import Randomness.Proofs.Finalizing

/-!
Who answers a request: the authority of the configuration, by a signature over the request's id and its
randomness in the same transaction.
-/

namespace Randomness

theorem Proof.message_injective {m n : UInt64} {a b : Block 32}
    (h : (message m a).bytes = (message n b).bytes) : m = n ∧ a = b := by
  obtain ⟨ids, blocks⟩ := List.append_inj h ((Block.length_eq _).trans (Block.length_eq _).symm)
  exact ⟨Place.idSeed_injective ids, Block.ext blocks⟩

section

variable [Crypto] {keys : Set Address} {P : Address} {id : UInt64} {randomness : Block 32} {g : Generation}

/-- An instruction for the signature's program, with the authority's signature over a request's id and
randomness. -/
structure Instruction.Attests (i : Instruction) (authority : Address) (id : UInt64) (randomness : Block 32) :
    Prop where
  program : i.program = signatureProgram
  key : (i.data.drop 16).take 32 = authority.bytes
  message : i.data.drop 112 = LittleEndian.encode 8 id.toNat ++ randomness.bytes
  signature : ∃ signature : Signature, (i.data.drop 48).take 64 = signature.bytes ∧
    Crypto.verify authority (i.data.drop 112) signature = true

theorem Instruction.attests_of_proves {i : Instruction} {authority : Address}
    (h : Coordinator.proves authority id randomness i = true) : i.Attests authority id randomness := by
  rw [Coordinator.proves, Bool.and_eq_true, decide_eq_true_eq] at h
  obtain ⟨program, valid⟩ := h
  split at valid
  · next signer signature key found =>
    simp only [Bool.and_eq_true, decide_eq_true_eq] at valid
    obtain ⟨⟨rfl, message⟩, verified⟩ := valid
    obtain ⟨_, key⟩ := Option.dite_none_right_eq_some.1 key
    obtain ⟨_, found⟩ := Option.dite_none_right_eq_some.1 found
    refine ⟨program, ?_, message, signature, ?_, verified⟩
    · exact congrArg Block.bytes (Option.some.inj key)
    · exact congrArg Block.bytes (Option.some.inj found)
  · cases valid

/-- A deed answers a request: it makes a pending one fulfilled, or removes one and tells its randomness. -/
inductive Deed.Answers (d : Deed) (P : Address) (id : UInt64) (randomness : Block 32) : Generation → Prop
  | fulfilled {r q : LegacyRequest} (found : d.before.records (.legacyRequest P id) = some r)
      (pending : r.status = .pending) (left : d.after.records (.legacyRequest P id) = some q)
      (fulfilled : q.status = .fulfilled) (answer : q.randomness = randomness) :
      Answers d P id randomness .legacy
  | delivered {r : WordsRequest} {e : RandomWordsFulfilled}
      (found : d.before.records (.wordsRequest P id) = some r)
      (gone : d.after.records (.wordsRequest P id) = none) (told : .event (.randomWordsFulfilled e) ∈ d.log)
      (answer : e.randomness = randomness) : Answers d P id randomness .subscription

/-- What answers a request is proved beside it. -/
theorem Deed.Done.proved {d : Deed} {σ τ : Registry} (h : d.Done keys σ τ) (hP : P ∈ keys)
    (answers : d.Answers P id randomness g) : ∃ config, d.before.records.config? g P = some config ∧
      d.instructions.any (Coordinator.proves config.authority id randomness) = true := by
  have before (t : Site) (ht : t.Over keys) : d.before.records t = σ t := h.before.records_eq ht
  have after (t : Site) (ht : t.Over keys) : d.after.records t = τ t := h.after.records_eq ht
  cases answers with
  | fulfilled found pending left fulfilled answer =>
    rw [before _ (by simpa using hP)] at found
    rw [after _ (by simpa using hP)] at left
    have handled := h.handles .legacy P id
    simp only [Registry.request?, found, left, Option.map_some, Option.some.injEq,
      RequestAccount.legacy.injEq] at handled
    rcases handled with rfl | ⟨c, _, _, _, handles⟩
    · rw [pending] at fulfilled
      cases fulfilled
    · cases handles with
      | fulfilled stored proved _ =>
        subst answer
        refine ⟨.legacy _, ?_, proved⟩
        rw [Registry.config?, before _ (by simpa using hP), stored]
        rfl
      | consumed other =>
        rw [pending] at other
        cases other
  | delivered found gone told answer =>
    rw [before _ (by simpa using hP)] at found
    rw [after _ (by simpa using hP)] at gone
    have handled := h.handles .subscription P id
    simp only [Registry.request?, found, gone, Option.map_some, Option.map_none] at handled
    rcases handled with same | ⟨c, _, _, _, handles⟩
    · cases same
    · cases handles with
      | delivered names known proved _ tells =>
        rw [(tells _).1 told] at answer
        subst answer
        refine ⟨.subscription _, ?_, proved⟩
        rw [Registry.config?, before _ (by simpa using hP), known]
        rfl

/-- Only the authority answers a request, and only with what it has signed. Whatever transactions were submitted
to a fresh ledger: a transaction that answers a request has an instruction with the signature of the
configuration's authority over exactly this id and randomness; so with a single signature, for one id and
randomness, it answers no other request, and none with another randomness. -/
theorem Ledger.authority_attests (distinct : DistinctAddresses keys) (ts : List Submission)
    (inside : ∀ t ∈ ts, t.Over keys) (hP : P ∈ keys) :
    ∀ d ∈ fresh.annals ts, ∀ g id randomness, d.Answers P id randomness g →
      (∃ config, d.before.records.config? g P = some config ∧
        ∃ i ∈ d.instructions, i.Attests config.authority id randomness) ∧
      ∀ secret n block, d.instructions.filter (fun i => i.program = Instruction.signatureProgram) =
          [Proof.instruction secret (Proof.message n block).bytes] → id = n ∧ randomness = block := by
  intro d hd g id randomness answers
  obtain ⟨_, _, led⟩ := reached distinct ts inside
  obtain ⟨σ, τ, done⟩ := led.done_of_mem hd
  obtain ⟨config, stored, proved⟩ := done.proved hP answers
  obtain ⟨i, hi, proves⟩ := List.any_eq_true.1 proved
  have attests := Instruction.attests_of_proves proves
  refine ⟨⟨config, stored, i, hi, attests⟩, fun secret n block single => ?_⟩
  have mem : i ∈ d.instructions.filter fun i => i.program = Instruction.signatureProgram :=
    List.mem_filter.2 ⟨hi, decide_eq_true attests.program⟩
  rw [single, List.mem_singleton] at mem
  subst mem
  refine Proof.message_injective ?_
  calc
    (Proof.message id randomness).bytes = (Proof.instruction secret (Proof.message n block).bytes).data.drop 112 :=
      attests.message.symm
    _ = (Proof.message n block).bytes := Proof.message_of_instruction secret _

end

namespace Recorded

/-- The request is answered beside the authority's signature over its id and the answer. -/
theorem fulfilling_attested :
    let _ := crypto
    ∃ d ∈ Ledger.fresh.annals [pledged, fulfilling], d.Answers program 0 answer .legacy ∧
      (∃ i ∈ d.instructions, i.Attests authority 0 answer) ∧
      ∀ secret n block, d.instructions.filter (fun i => i.program = Instruction.signatureProgram) =
        [Proof.instruction secret (Proof.message n block).bytes] → n = 0 ∧ block = answer := by
  intro _
  have inside : ∀ t ∈ [pledged, fulfilling], t.Over Set.univ := by
    simp [Submission.Over, pledged, fulfilling, Operation.Over]
  have apart : DistinctAddresses Set.univ := distinct
  have answered : ((Ledger.fresh.annals [pledged, fulfilling]).any fun d =>
      ((d.before.records (.legacyRequest program 0)).any fun r => r.status = .pending) &&
      ((d.after.records (.legacyRequest program 0)).any fun q => q.status = .fulfilled ∧ q.randomness = answer) &&
      (d.before.records.config? .legacy program).map ConfigAccount.authority = some authority) = true := by
    decide +kernel
  obtain ⟨d, hd, answered⟩ := List.any_eq_true.1 answered
  simp only [Bool.and_eq_true, Option.any_eq_true, decide_eq_true_eq] at answered
  obtain ⟨⟨⟨r, found, pending⟩, q, left, fulfilled, answer'⟩, known⟩ := answered
  have answers : d.Answers program 0 answer .legacy := .fulfilled found pending left fulfilled answer'
  obtain ⟨⟨config, stored, attested⟩, single⟩ := Ledger.authority_attests apart [pledged, fulfilling] inside
    (Set.mem_univ program) d hd .legacy 0 answer answers
  rw [stored] at known
  have same : config.authority = authority := Option.some.inj known
  rw [same] at attested
  refine ⟨d, hd, answers, attested, fun secret n block only => ?_⟩
  obtain ⟨rfl, rfl⟩ := single secret n block only
  exact ⟨rfl, rfl⟩

end Recorded

end Randomness
