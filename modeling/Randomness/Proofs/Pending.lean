import Mathlib.Data.List.Basic
import Randomness.Node.Remote
import Randomness.Proofs.Armor
import Randomness.Proofs.Decoding
import Randomness.Proofs.Documents
import Randomness.Proofs.Operation
import Randomness.Proofs.Site
import Randomness.Proofs.Spelling

/-!
What a node tells of its accounts. Searches for pending requests: the filters that a node is asked to apply let through
all requests that nobody has fulfilled, and what else they let through is passed over when it is read. One account
alone is read in the form in which it is asked for.
-/

namespace Randomness

theorem Bytes.take_one_drop_eq_iff {bs : Bytes} {i : Nat} {b : UInt8} :
    (bs.drop i).take 1 = [b] ↔ bs[i]? = some b := by
  rw [List.take_one, List.head?_drop]
  cases bs[i]? <;> simp

namespace RequestAccount

def generation : RequestAccount → Generation
  | legacy _ => .legacy
  | subscription _ => .subscription

/-- The bytes of a request's account. -/
def encode : RequestAccount → Bytes
  | legacy r => Kind.legacyRequest.encode r
  | subscription r => Kind.wordsRequest.encode r

theorem length_encode (r : RequestAccount) : r.encode.length = r.generation.requestKind.size := by
  cases r <;> exact Kind.length_encode ..

theorem take_encode (r : RequestAccount) : r.encode.take 8 = Discriminator.Account.randomnessRequest.bytes := by
  cases r <;> exact List.take_left' (Block.length_eq _)

/-- The byte that the filters compare is the one of the status. -/
theorem getElem?_encode (r : RequestAccount) : r.encode[r.generation.statusOffset]? = some r.status.code := by
  cases r with
  | legacy r =>
    have reach : Kind.legacyRequest.discriminator.bytes.length ≤ 120 := by decide
    exact (List.getElem?_append_right reach).trans (Kind.legacyRequest_status (Layout.legacyRequest.fields r))
  | subscription r =>
    have reach : Kind.wordsRequest.discriminator.bytes.length ≤ 136 := by decide
    exact (List.getElem?_append_right reach).trans (Kind.wordsRequest_status (Layout.wordsRequest.fields r))

theorem encode_of_decode {g : Generation} {data : Bytes} {r : RequestAccount} (h : decode g data = .ok r) :
    r.generation = g ∧ r.encode = data.take g.requestKind.size := by
  cases g with
  | legacy =>
    obtain ⟨r, read, rfl⟩ := map_eq_ok.1 h
    exact ⟨rfl, Kind.encode_of_decode read⟩
  | subscription =>
    obtain ⟨r, read, rfl⟩ := map_eq_ok.1 h
    exact ⟨rfl, Kind.encode_of_decode read⟩

end RequestAccount

namespace Node

variable {g : Generation} {data : Bytes}

/-- The request that is pending under a generation in an account's data: they have exactly the size of a request,
and are read as one that nobody has fulfilled. -/
def pending? (g : Generation) (data : Bytes) : Option RequestAccount :=
  if data.length = g.requestKind.size then
    (RequestAccount.decode g data).toOption.filter fun r => r.status = .pending
  else none

/-- All filters let the data through. -/
def passes (filters : List DataFilter) (data : Bytes) : Bool := filters.all (DataFilter.accepts data)

theorem passes_pendingFilters : passes (pendingFilters g) data = true ↔
    data.length = g.requestKind.size ∧ data.take 8 = Discriminator.Account.randomnessRequest.bytes ∧
      data[g.statusOffset]? = some RequestStatus.pending.code := by
  have disc : Discriminator.Account.randomnessRequest.bytes.length = 8 := Block.length_eq _
  simp only [passes, pendingFilters, List.all_cons, List.all_nil, Bool.and_true, Bool.and_eq_true,
    DataFilter.accepts, decide_eq_true_eq, List.drop_zero, disc, List.length_singleton,
    Bytes.take_one_drop_eq_iff]

/-- A request passes the filters of its generation exactly if it is pending. -/
theorem passes_encode (r : RequestAccount) :
    passes (pendingFilters r.generation) r.encode = decide (r.status = .pending) := by
  have code : r.status.code = RequestStatus.pending.code ↔ r.status = .pending := by
    cases r.status <;> decide
  rw [Bool.eq_iff_iff, passes_pendingFilters, decide_eq_true_iff, r.getElem?_encode, Option.some_inj, code]
  exact and_iff_right r.length_encode |>.trans (and_iff_right r.take_encode)

/-- What the filters let through and is read is what is pending. -/
theorem request?_of_passes (a : Address) :
    (if passes (pendingFilters g) data then request? g (a, some data) else none) =
      (pending? g data).map (a, ·) := by
  by_cases size : data.length = g.requestKind.size
  · cases read : RequestAccount.decode g data with
    | error e => simp [request?, pending?, read, Except.toOption]
    | ok r =>
      obtain ⟨rfl, bytes⟩ := RequestAccount.encode_of_decode read
      rw [List.take_of_length_le (Nat.le_of_eq size)] at bytes
      subst bytes
      rw [passes_encode, pending?, if_pos size, request?]
      simp only [read]
      by_cases pending : r.status = .pending <;> simp [pending, Except.toOption, Option.filter]
  · have kept : passes (pendingFilters g) data = false := by
      rw [Bool.eq_false_iff]
      intro passed
      exact size (passes_pendingFilters.1 passed).1
    rw [kept, pending?, if_neg size]
    rfl

/-- An account that a node holds. -/
structure Holding where
  address : Address
  data : Bytes
  lamports : UInt64
  executable : Bool
  rentEpoch : UInt64
  space : Option UInt64

/-- What a node lists of the accounts that it holds: those that pass all filters, in its own order. -/
def listed (filters : List DataFilter) (held : List Holding) : List Holding :=
  held.filter fun e => passes filters e.data

/-- How long the data of a generation's requests are, and where in them the status stands. -/
def extent : Generation → Nat × Nat
  | .legacy => (162, 120)
  | .subscription => (308, 136)

/-- What the data of requests begin with. -/
def mark : Bytes := [244, 231, 228, 160, 148, 28, 17, 184]

/-- Data as long as those of a generation's requests, with their mark in front and a zero for the status. -/
def looksPending (g : Generation) (data : Bytes) : Bool :=
  data.length = (extent g).1 && data.take 8 = mark && data[(extent g).2]? = some 0

theorem passes_eq_looksPending : passes (pendingFilters g) data = looksPending g data := by
  rw [Bool.eq_iff_iff, passes_pendingFilters]
  cases g <;> simp only [looksPending, Bool.and_eq_true, decide_eq_true_eq, and_assoc] <;> rfl

theorem listed_pendingFilters (held : List Holding) :
    listed (pendingFilters g) held = held.filter fun e => looksPending g e.data := by
  simp only [listed, passes_eq_looksPending]

/-- Of the accounts that pass the filters, those that are read are the pending ones. -/
theorem filterMap_listed (g : Generation) (held : List Holding) :
    ((listed (pendingFilters g) held).map fun e => (e.address, some e.data)).filterMap (request? g) =
      held.filterMap fun e => (pending? g e.data).map (e.address, ·) := by
  rw [listed, List.filterMap_map, List.filterMap_filter]
  refine congrArg (List.filterMap · held) (funext fun e => ?_)
  exact request?_of_passes e.address

namespace Remote

open Document Http

/-- Data in base 64 as a node writes them, with the name of the encoding. -/
def encoded (name : String) (bs : Bytes) : Document := array [text (Base64.encode bs), text name]

/-- An account of an owner as a node writes it, around its data. -/
def accountDocument (owner : Address) (data : Document) (e : Holding) : Document :=
  record [("data", data), ("executable", bool e.executable),
    ("lamports", number e.lamports.toNat), ("owner", text owner.text),
    ("rentEpoch", number e.rentEpoch.toNat),
    ("space", ofOption (fun n => number (UInt64.toNat n)) e.space)]

def listing (owner : Address) (e : Holding) : Document :=
  record [("account", accountDocument owner (encoded "base64" e.data) e), ("pubkey", text e.address.text)]

/-- The response with a list of accounts. -/
def listResponse (id : Nat) (owner : Address) (es : List Holding) : Response :=
  ⟨200, .document <| record
    [("id", number id), ("jsonrpc", text "2.0"), ("result", array (es.map (listing owner)))]⟩

section

variable {owner : Address} {unpack? : Bytes → Option Bytes}

theorem tree?_accountDocument (n : Nat) (owner : Address) (name : String) (bs : Bytes) (e : Holding) :
    (accountDocument owner (encoded name bs) e).tree? (n + 2) = some (accountDocument owner (encoded name bs) e) := by
  have data : (encoded name bs).tree? (n + 1) = some (encoded name bs) := tree?_array (by simp)
  have space := tree?_ofOption (n := n + 1) (f := fun n => number (UInt64.toNat n)) (fun _ => tree?_number _)
    e.space
  exact tree?_record (by simp) (by simp [data, space])

theorem tree?_listing (n : Nat) (e : Holding) :
    (listing owner e).tree? (n + 3) = some (listing owner e) := by
  have account := tree?_accountDocument n owner "base64" e.data e
  exact tree?_record (by simp) (by simp [account])

theorem data?_base64 (bs : Bytes) : data? unpack? (encoded "base64" bs) = some (some bs) := by
  change some (Base64.decode (Text.utf8 (Base64.encode bs).toList)).toOption = _
  rw [Base64.decode_encode]
  rfl

theorem data?_compressed (packed : Bytes) :
    data? unpack? (encoded "base64+zstd" packed) = some (unpack? packed) := by
  change some ((Base64.decode (Text.utf8 (Base64.encode packed).toList)).toOption >>= unpack?) = _
  rw [Base64.decode_encode]
  rfl

theorem read?_record (data executable lamports owner rentEpoch space : Document) :
    NodeAccount.read? unpack? (record [("data", data), ("executable", executable), ("lamports", lamports),
        ("owner", owner), ("rentEpoch", rentEpoch), ("space", space)]) = do
      let _ ← u64? lamports
      let data ← data? unpack? data
      let owner ← text? owner
      let _ ← bool? executable
      let _ ← u64? rentEpoch
      let _ ← optional u64? (some space)
      return ⟨data, owner⟩ := by
  rw [NodeAccount.read?, record?_record rfl]
  rfl

theorem listed?_record (account pubkey : Document) :
    listed? unpack? (record [("account", account), ("pubkey", pubkey)]) = do
      return (← text? pubkey, ← NodeAccount.read? unpack? account) := by
  rw [listed?, record?_record rfl]
  rfl

theorem read?_accountDocument {data : Document} {bs : Option Bytes} (read : data? unpack? data = some bs)
    (e : Holding) : NodeAccount.read? unpack? (accountDocument owner data e) = some ⟨bs, owner.text⟩ := by
  rw [accountDocument, read?_record, u64?_number, u64?_number, read,
    optional_ofOption u64?_number fun _ => number_ne_null _]
  rfl

theorem listed?_listing (e : Holding) :
    listed? unpack? (listing owner e) = some (e.address.text, ⟨some e.data, owner.text⟩) := by
  rw [listing, listed?_record, read?_accountDocument (data?_base64 e.data)]
  rfl

theorem inContext?_eq {read : Option Document → Option α} {d c n : Document} {m k : Members} {slot : UInt64}
    (members : d.record? ["context", "value"] = some m) (context : m "context" = some c)
    (inside : c.record? ["slot", "apiVersion"] = some k) (told : k "slot" = some n) (number : u64? n = some slot)
    (silent : k "apiVersion" = none) : inContext? read d = read (m "value") := by
  simp only [inContext?, members, context, required, inside, told, number, silent, Document.optional,
    Option.bind_eq_bind, Option.bind_some]

theorem inContext?_record {read : Option Document → Option α} (slot : UInt64) (d : Document) :
    inContext? read (record [("context", record [("slot", number slot.toNat)]), ("value", d)]) = read (some d) :=
  inContext?_eq (record?_record rfl) rfl (record?_record rfl) rfl (u64?_number slot) rfl

/-- A list whose items have no slot is not taken for a context and a value. -/
theorem inContext?_array {read : Option Document → Option α} {items : List Document}
    (bare : ∀ d ∈ items, ∃ c, d.record? ["slot", "apiVersion"] = some c ∧ c "slot" = none) :
    inContext? read (array items) = none := by
  by_cases two : items.length = 2
  · obtain ⟨d, e, rfl⟩ := List.length_eq_two.1 two
    obtain ⟨c, first, slot⟩ := bare d List.mem_cons_self
    have names : (array [d, e]).record? ["context", "value"] =
        some fun n => (["context", "value"].zip [d, e]).lookup n := rfl
    have context : (["context", "value"].zip [d, e]).lookup "context" = some d := rfl
    simp only [inContext?, names, context, required, first, slot, Option.bind_eq_bind, Option.bind_some,
      Option.bind_none]
  · have names : (array items).record? ["context", "value"] = none := if_neg two
    rw [inContext?, names]
    rfl

theorem accountList?_listings (es : List Holding) : accountList? unpack? (array (es.map (listing owner))) =
    some (es.map fun e => (e.address.text, ⟨some e.data, owner.text⟩)) := by
  have plain : (array (es.map (listing owner))).list? (listed? unpack?) =
      some (es.map fun e => (e.address.text, ⟨some e.data, owner.text⟩)) := by
    rw [list?, List.mapM_map]
    apply mapM_eq_some
    intro e _
    rw [Function.comp, listed?_listing]
  have context : inContext? (required (list? (listed? unpack?))) (array (es.map (listing owner))) = none := by
    apply inContext?_array
    intro d hd
    obtain ⟨e, _, rfl⟩ := List.mem_map.1 hd
    rw [listing, record?_record rfl]
    exact ⟨_, rfl, rfl⟩
  rw [accountList?, context, plain, Option.orElse_eq_orElse, Option.orElse_eq_or,
    Option.none_or]

theorem mapM_addressed (es : List Holding) :
    (es.map fun e => (e.address.text, (⟨some e.data, owner.text⟩ : NodeAccount))).mapM addressed =
      .ok (es.map fun e => (e.address, some e.data)) := by
  induction es with
  | nil => rfl
  | cons e es ih =>
    rw [List.map_cons, List.mapM_cons, ih, addressed, Address.parse_text]
    rfl

/-- A response with a result is one with nothing else, whatever its number. -/
theorem resultOf_result (url : String) (id : Nat) {result : Document} (tree : result.tree? 126 = some result) :
    resultOf url ⟨200, .document (record [("id", number id), ("jsonrpc", text "2.0"), ("result", result)])⟩ =
      .ok result := by
  have body : (record [("id", number id), ("jsonrpc", text "2.0"), ("result", result)]).tree? 127 =
      some (record [("id", number id), ("jsonrpc", text "2.0"), ("result", result)]) :=
    tree?_record (by simp) (by simp [tree])
  have success : (!(Response.mk 200 (.document (record [("id", number id), ("jsonrpc", text "2.0"),
      ("result", result)]))).isSuccess) = false := rfl
  rw [resultOf, success, if_neg Bool.false_ne_true]
  simp only [Body.document?, Option.bind_eq_bind, Option.bind_some, body]
  rfl

/-- A call that is answered at once. -/
theorem call_answered {method : String} {params : List Document} {l : Link} {r : Response} {rest : List Response}
    (reachable : l.server.isReachable) (ahead : l.server.responses = r :: rest)
    (patient : r.status ≠ tooManyRequests) : call method params l = (resultOf l.server.url r,
      ⟨{ l.server with responses := rest, requests := request l.nextId method params :: l.server.requests },
        l.nextId + 1⟩) := by
  have posted : l.server.post (request l.nextId method params) = (some r,
      { l.server with responses := rest, requests := request l.nextId method params :: l.server.requests }) := by
    rw [Server.post, if_pos reachable, ahead, List.headD_cons, List.tail_cons]
  rw [call, postPatiently]
  simp only [posted, if_neg patient]

/-- What a node tells of one account, with its data compressed. -/
def accountResult (slot : UInt64) (owner : Address) (packed : Bytes) (e : Holding) : Document :=
  record [("context", record [("slot", number slot.toNat)]),
    ("value", accountDocument owner (encoded "base64+zstd" packed) e)]

def accountResponse (id : Nat) (result : Document) : Response :=
  ⟨200, .document <| record [("id", number id), ("jsonrpc", text "2.0"), ("result", result)]⟩

theorem tree?_accountResult (n : Nat) (slot : UInt64) (packed : Bytes) (e : Holding) :
    (accountResult slot owner packed e).tree? (n + 3) = some (accountResult slot owner packed e) := by
  have value := tree?_accountDocument n owner "base64+zstd" packed e
  have context : (record [("slot", number slot.toNat)]).tree? (n + 2) = some (record [("slot", number slot.toNat)]) :=
    tree?_record (by simp) (by simp)
  exact tree?_record (by simp) (by simp [value, context])

/-- A result that is there is read as an account, or as none. -/
theorem account_of_result {a : Address} {l l' : Link} {d : Document} (there : d ≠ null)
    (told : call "getAccountInfo" [text a.text, record (accountConfig "base64+zstd")] l = (.ok d, l')) :
    account unpack? a l =
      ((readAs (inContext? (Document.optional (NodeAccount.read? unpack?))) d).map
        fun (found : Option NodeAccount) => found.bind NodeAccount.bytes?, l') := by
  rw [account, told]
  cases d with
  | null => exact absurd rfl there
  | _ => rfl

/-- An account is found in the form in which it is asked for: its data compressed, and then in base 64. -/
theorem account_answered {a : Address} {e : Holding} {packed : Bytes} (unpacked : unpack? packed = some e.data)
    {id : Nat} {slot : UInt64} {l : Link} {rest : List Response} (reachable : l.server.isReachable)
    (ahead : l.server.responses = accountResponse id (accountResult slot owner packed e) :: rest) :
    (account unpack? a l).1 = .ok (some e.data) := by
  have result : resultOf l.server.url (accountResponse id (accountResult slot owner packed e)) =
      .ok (accountResult slot owner packed e) :=
    resultOf_result _ id (tree?_accountResult 123 slot packed e)
  have patient : (accountResponse id (accountResult slot owner packed e)).status ≠ tooManyRequests :=
    (by decide : 200 ≠ 429)
  have there : accountResult slot owner packed e ≠ null := record_ne_null _
  have answered : call "getAccountInfo" [text a.text, record (accountConfig "base64+zstd")] l = _ :=
    call_answered reachable ahead patient
  have read : NodeAccount.read? unpack? (accountDocument owner (encoded "base64+zstd" packed) e) =
      some ⟨some e.data, owner.text⟩ := by
    rw [read?_accountDocument (data?_compressed packed), unpacked]
  have found : inContext? (Document.optional (NodeAccount.read? unpack?)) (accountResult slot owner packed e) =
      some (some ⟨some e.data, owner.text⟩) := by
    rw [accountResult, inContext?_record, Document.optional, read]
    · rfl
    · exact record_ne_null _
  rw [result] at answered
  rw [account_of_result there answered, readAs, found]
  change Except.ok (NodeAccount.bytes? ⟨some e.data, owner.text⟩) = _
  rw [NodeAccount.bytes?, Address.parse_text]

/-- What is posted for the accounts of an owner that pass filters. -/
def listRequest (id : Nat) (owner : Address) (filters : List DataFilter) : Document :=
  request id "getProgramAccounts" [text owner.text, record <|
    ("filters", array (filters.map filterParam)) :: accountConfig "base64" ++
      [("withContext", null), ("sortResults", null)]]

/-- What is posted for the requests that wait: it asks for accounts by size, by the mark at their start and by a zero
for the status, with the data in base 64. -/
def searchRequest (id : Nat) (owner : Address) (g : Generation) : Document :=
  record [("jsonrpc", text "2.0"), ("id", number id), ("method", text "getProgramAccounts"), ("params", array
    [text owner.text, record
      [("filters", array [record [("dataSize", number (extent g).1)], bytesAt 0 mark, bytesAt (extent g).2 [0]]),
        ("encoding", text "base64"), ("dataSlice", null), ("commitment", text "confirmed"),
        ("minContextSlot", null), ("withContext", null), ("sortResults", null)]])]
where
  bytesAt (offset : Nat) (expected : Bytes) : Document :=
    record [("memcmp", record [("offset", number offset), ("encoding", text "bytes"),
      ("bytes", array (expected.map fun b => number b.toNat))])]

theorem listRequest_pendingFilters (id : Nat) (g : Generation) :
    listRequest id owner (pendingFilters g) = searchRequest id owner g := by
  cases g <;> rfl

theorem accounts_answered {filters : List DataFilter} {es : List Holding} {id : Nat} {l : Link}
    {rest : List Response} (reachable : l.server.isReachable)
    (ahead : l.server.responses = listResponse id owner es :: rest) :
    accounts unpack? owner filters l = (.ok (es.map fun e => (e.address, some e.data)),
      ⟨{ l.server with responses := rest, requests := listRequest l.nextId owner filters :: l.server.requests },
        l.nextId + 1⟩) := by
  have tree : (array (es.map (listing owner))).tree? 126 = some (array (es.map (listing owner))) := by
    apply tree?_array
    intro d hd
    obtain ⟨e, _, rfl⟩ := List.mem_map.1 hd
    exact tree?_listing 122 e
  have result (url : String) : resultOf url (listResponse id owner es) = .ok (array (es.map (listing owner))) :=
    resultOf_result url id tree
  have patient : (listResponse id owner es).status ≠ tooManyRequests := (by decide : 200 ≠ 429)
  rw [accounts, callAs, call_answered reachable ahead patient, result]
  simp only [ok_bind, readAs, accountList?_listings, mapM_addressed]
  rfl

end

/-- A conversation that asks for accounts once, and ends. -/
theorem run_accounts {d : NodeM α} {owner : Address} {filters : List DataFilter}
    {f : Except NodeError (List (Address × Option Bytes)) → Except LedgerError α}
    (asks : d.run = .ask (.accounts owner filters) fun r => .done (f r)) (w : Medium) (l : Link) :
    run w d l = (f (accounts w.unpack? owner filters l).1, (accounts w.unpack? owner filters l).2) := by
  rw [run, asks]
  rfl

end Remote

/-- The conversation asks for the accounts that pass the filters, once. -/
theorem run_pendingRequests (program : Address) (g : Generation) : (pendingRequests program g).run =
    .ask (.accounts program (pendingFilters g)) fun (r : Except NodeError (List (Address × Option Bytes))) =>
      .done ((r.mapError .node).map fun es => es.filterMap (request? g)) := by
  change Dialogue.ask _ _ = _
  congr 1
  funext r
  cases r <;> rfl

/-- Of the accounts that a node holds, a search finds, in the node's order, exactly those whose data have the size of
a request and are read under the generation as one that nobody has fulfilled. It asks for them once, by what their
data look like, on the wire with the data in base 64 too. Requests of the other generation are none of them. -/
theorem finds_pending (program : Address) (g : Generation) (held : List Holding) :
    let pending := held.filterMap fun e => (pending? g e.data).map (e.address, ·)
    (∀ answer : (q : NodeQuestion) → q.Answer,
      (∀ filters, answer (.accounts program filters) =
        .ok ((listed filters held).map fun e => (e.address, some e.data))) →
      (pendingRequests program g).run.run (m := Id) answer (fun _ => ()) = .ok pending) ∧
    (∀ w (l : Remote.Link) id rest, l.server.isReachable →
      l.server.responses =
        Remote.listResponse id program (held.filter fun e => looksPending g e.data) :: rest →
      Remote.run w (pendingRequests program g) l = (.ok pending,
        ⟨{ l.server with
            responses := rest
            requests := Remote.searchRequest l.nextId program g :: l.server.requests },
          l.nextId + 1⟩)) ∧
    (∀ data r, pending? g data = some r ↔
      data.length = g.requestKind.size ∧ RequestAccount.decode g data = .ok r ∧ r.status = .pending) ∧
    ∀ r : RequestAccount, r.generation ≠ g → pending? g r.encode = none := by
  intro pending
  have found (r : Except NodeError (List (Address × Option Bytes)))
      (answered : r = .ok ((listed (pendingFilters g) held).map fun e => (e.address, some e.data))) :
      (r.mapError LedgerError.node).map (fun es => es.filterMap (request? g)) = .ok pending := by
    rw [answered, Except.mapError, Except.map, filterMap_listed]
  refine ⟨?_, ?_, ?_, ?_⟩
  · intro answer lists
    rw [run_pendingRequests]
    exact found _ (lists _)
  · intro w l id rest reachable ahead
    rw [← listed_pendingFilters] at ahead
    rw [Remote.run_accounts (run_pendingRequests program g), Remote.accounts_answered reachable ahead,
      Remote.listRequest_pendingFilters]
    exact Prod.ext (found _ rfl) rfl
  · intro data r
    by_cases size : data.length = g.requestKind.size
    · rw [pending?, if_pos size, Option.filter_eq_some_iff, toOption_eq_some, decide_eq_true_iff]
      exact (and_iff_right size).symm
    · rw [pending?, if_neg size]
      simp [size]
  · intro r other
    have sizes : r.generation.requestKind.size ≠ g.requestKind.size := by
      revert other
      cases r.generation <;> cases g <;> decide
    rw [pending?, if_neg (by rwa [r.length_encode])]

end Node

namespace Recorded

open Node

/-- A request of the legacy generation that waits for its randomness. -/
def waiting : LegacyRequest where
  requestId := 3
  requester := repeated 8
  seed := repeated 6
  requestSlot := 101
  callbackProgram := Address.zero
  status := .pending
  randomness := Block.zero 32
  fulfilledSlot := 0
  bump := 255

/-- Behind a request that waits there are one that was consumed, a longer one, and one of the other generation. -/
def board : List Holding :=
  [Kind.legacyRequest.encode waiting, Kind.legacyRequest.encode { waiting with status := .consumed },
    Kind.legacyRequest.encode waiting ++ [0], Kind.wordsRequest.encode (answered (repeated 0))].map
      fun data => ⟨repeated 5, data, 1, false, 18446744073709551615, some 0⟩

def boardLink : Remote.Link where
  server :=
    ⟨"http://node", true, [Remote.listResponse 0 program (board.filter fun e => looksPending .legacy e.data)], []⟩
  nextId := 0

/-- A node that holds the board, and answers nothing else. -/
def boardAnswer : (q : NodeQuestion) → q.Answer
  | .accounts _ filters => .ok ((listed filters board).map fun e => (e.address, some e.data))
  | .account _ => .error .malformedResult
  | .blockhash => .error .malformedResult
  | .send _ => .error .malformedResult
  | .effects _ => .error .malformedResult

/-- Only the request that waits is found, by a node's answer and over the wire. -/
theorem board_searched :
    (pendingRequests program .legacy).run.run (m := Id) boardAnswer (fun _ => ()) =
      .ok [(repeated 5, .legacy waiting)] ∧
    (Remote.run (⟨fun _ => "", fun _ => Block.zero 64⟩ : Remote.Wire) (pendingRequests program .legacy) boardLink).1 =
      .ok [(repeated 5, .legacy waiting)] := by
  have found : board.filterMap (fun e => (pending? .legacy e.data).map (e.address, ·)) =
      [(repeated 5, .legacy waiting)] := by decide +kernel
  obtain ⟨answers, wire, _, _⟩ := finds_pending program .legacy board
  rw [found] at answers wire
  exact ⟨answers boardAnswer fun _ => rfl, congrArg Prod.fst (wire _ boardLink 0 [] rfl rfl)⟩

end Recorded

end Randomness
