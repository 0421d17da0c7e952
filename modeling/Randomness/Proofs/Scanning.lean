import Randomness.Proofs.Armor
import Randomness.Proofs.Decoding
import Randomness.Proofs.Replies
import Randomness.Proofs.Spelling

/-!
Scans of an index: page after page, each request is found where it stands, and everything else is passed over.
-/

namespace Randomness.Index.Remote

open Document Http

/-! ## Items -/

/-- A request's data with its discriminator in front. -/
def ItemData.inline (r : CompressedRequest) : ItemData :=
  ⟨Base64.encode (Kind.compressedRequest.encode r), none⟩

/-- A request's data with its discriminator beside them, as a number. -/
def ItemData.apart (r : CompressedRequest) : ItemData :=
  ⟨Base64.encode (Kind.compressedRequest.encodeBody r), some 5716374961295466389⟩

/-- An item tells a request, and where its leaf is. -/
structure Item.Tells (i : Item) (r : IndexedRequest) : Prop where
  data : i.data = some (.inline r.request) ∨ i.data = some (.apart r.request)
  hash : i.hash = Base58.encode r.hash.bytes
  address : i.address = r.address.map Address.text
  tree : i.tree = r.tree.map Address.text
  leafIndex : i.leafIndex = some r.leafIndex ∨ i.leafIndex = none ∧ r.leafIndex = 0
  legible : r.request.status ≠ .consumed

/-- Data that are no request. -/
inductive Foreign (data : Bytes) : Prop
  | discriminator (other : data.take 8 ≠ Kind.compressedRequest.discriminator.bytes)
  | short (short : data.length < 121)
  | status {code : UInt8} (found : data[88]? = some code) (bad : 1 < code.toNat)

/-- An item that tells no request. -/
inductive Item.Junk (i : Item) : Prop
  | noData (missing : i.data = none)
  | data {d : ItemData} {e : Base64.Fault} (given : i.data = some d)
      (bad : Base64.decode (Text.utf8 d.text.toList) = .error e)
  | hash {e : Base58.Fault} (bad : Base58.decode i.hash.toList = .error e)
  | hashSize {bs : Bytes} (read : Base58.decode i.hash.toList = .ok bs) (wrong : bs.length ≠ 32)
  | address {s : String} {e : Address.Fault} (given : i.address = some s) (bad : Address.parse s = .error e)
  | tree {s : String} {e : Address.Fault} (given : i.tree = some s) (bad : Address.parse s = .error e)
  | foreign {d : ItemData} {data : Bytes} (given : i.data = some d) (means : d.Means data)
      (foreign : Foreign data)

/-- The request that an item tells, or none for junk. -/
inductive Item.Lists (i : Item) : Option IndexedRequest → Prop
  | request {r : IndexedRequest} (tells : i.Tells r) : Lists i (some r)
  | junk (junk : i.Junk) : Lists i none

/-- What a scan makes of an item. -/
def Item.request? (i : Item) : Option IndexedRequest := i.listed?.bind IndexEntry.request?

theorem Foreign.unread {data : Bytes} (h : Foreign data) :
    ∃ e, Kind.compressedRequest.decode data = .error e := by
  suffices fault : ∃ e, Kind.compressedRequest.Fault data e by
    obtain ⟨e, fault⟩ := fault
    exact ⟨e, Kind.decode_eq_error_iff.2 fault⟩
  by_cases long : Kind.compressedRequest.size ≤ data.length
  · by_cases front : data.take 8 = Kind.compressedRequest.discriminator.bytes
    · cases h with
      | discriminator other => exact absurd front other
      | short short => exact absurd long (Nat.not_le.2 short)
      | status found bad => exact ⟨_, .invalidStatus long front ⟨88, rfl, found, bad⟩⟩
    · have eight : (data.take 8).length = 8 := by
        have size : Kind.compressedRequest.size = 121 := rfl
        rw [List.length_take]
        omega
      have other : (⟨data.take 8, eight⟩ : Discriminator) ≠ Kind.compressedRequest.discriminator :=
        fun same => front (congrArg Block.bytes same)
      exact ⟨_, .wrongDiscriminator long rfl other⟩
  · exact ⟨_, .tooShort (Nat.not_le.1 long)⟩

/-- A request of this kind is never consumed; data that say so are no request. -/
theorem Foreign.of_consumed {r : CompressedRequest} (consumed : r.status = .consumed) :
    Foreign (Kind.compressedRequest.encode r) := by
  have holds :
      Kind.compressedRequest.Holds (Kind.compressedRequest.encode r) (Layout.compressedRequest.fields r) :=
    ⟨List.take_of_length_le (Nat.le_of_eq (Kind.length_encode ..))⟩
  have byte : (Kind.compressedRequest.encode r)[88]? = some r.status.code :=
    (holds.getElem? (i := 80) (by decide)).trans (Kind.compressedRequest_status _)
  exact .status byte (by rw [consumed]; decide)

theorem ItemData.means_inline (r : CompressedRequest) :
    (ItemData.inline r).Means (Kind.compressedRequest.encode r) :=
  .alone rfl (Base64.decode_encode _)

theorem ItemData.means_apart (r : CompressedRequest) :
    (ItemData.apart r).Means (Kind.compressedRequest.encode r) := by
  have front : LittleEndian.encode 8 (5716374961295466389 : UInt64).toNat =
      Kind.compressedRequest.discriminator.bytes := by decide
  rw [Kind.encode, ← front]
  exact .beside rfl (Base64.decode_encode _)

theorem names_text (a : Option Address) : Names (a.map Address.text) a := by
  cases a with
  | none => exact .missing
  | some a => exact .text (Address.parse_text a)

theorem ItemData.Means.read {d : ItemData} {data : Bytes} (means : d.Means data) :
    ∃ bs, Base64.decode (Text.utf8 d.text.toList) = .ok bs := by
  cases means with
  | alone _ read => exact ⟨_, read⟩
  | beside _ read => exact ⟨_, read⟩

theorem ItemData.Means.unique {d : ItemData} {data data' : Bytes} (means : d.Means data) (means' : d.Means data') :
    data = data' := by
  have same := (ItemData.bytes_eq_ok_iff.2 means).symm.trans (ItemData.bytes_eq_ok_iff.2 means')
  exact Except.ok.inj same

theorem Item.request?_eq_some {i : Item} {r : IndexedRequest} :
    i.request? = some r ↔ ∃ e, i.Parses e ∧ e.request? = some r := by
  simp only [request?, Option.bind_eq_some_iff, listed?_eq_some_iff]

theorem Item.Tells.request? {i : Item} {r : IndexedRequest} (h : i.Tells r) : i.request? = some r := by
  have data : ∃ d, i.data = some d ∧ d.Means (Kind.compressedRequest.encode r.request) := by
    rcases h.data with given | given
    · exact ⟨_, given, ItemData.means_inline _⟩
    · exact ⟨_, given, ItemData.means_apart _⟩
  have parses : i.Parses ⟨r.hash, r.address, r.tree, r.leafIndex, Kind.compressedRequest.encode r.request⟩ := by
    refine ⟨data, ?_, ?_, ?_, h.leafIndex⟩
    · rw [h.hash, Base58.decode_encode]
    · rw [h.address]
      exact names_text _
    · rw [h.tree]
      exact names_text _
  refine Item.request?_eq_some.2 ⟨_, parses, ?_⟩
  simp only [IndexEntry.request?, Kind.decode_encode .compressedRequest r.request h.legible]

theorem Names.readable {s : Option String} {a : Option Address} (h : Names s a) :
    ∀ t ∈ s, ∀ e, Address.parse t ≠ .error e := by
  intro t mem e bad
  cases h with
  | missing => cases mem
  | text read =>
    cases mem
    rw [read] at bad
    cases bad

theorem Item.Junk.request? {i : Item} (h : i.Junk) : i.request? = none := by
  rw [Option.eq_none_iff_forall_not_mem]
  intro r found
  obtain ⟨e, parses, told⟩ := Item.request?_eq_some.1 found
  obtain ⟨d, given, means⟩ := parses.data
  cases h with
  | noData missing =>
    rw [missing] at given
    cases given
  | data given' bad =>
    obtain rfl := Option.some.inj (given'.symm.trans given)
    obtain ⟨bs, read⟩ := means.read
    rw [bad] at read
    cases read
  | hash bad =>
    have hash := parses.hash
    rw [bad] at hash
    cases hash
  | hashSize read wrong =>
    obtain rfl := Except.ok.inj (read.symm.trans parses.hash)
    exact wrong e.hash.length_eq
  | address given' bad => exact parses.address.readable _ given' _ bad
  | tree given' bad => exact parses.tree.readable _ given' _ bad
  | foreign given' means' foreign =>
    obtain rfl := Option.some.inj (given'.symm.trans given)
    obtain rfl := means'.unique means
    obtain ⟨f, unread⟩ := foreign.unread
    rw [IndexEntry.request?, unread] at told
    cases told

theorem Item.Lists.request? {i : Item} {r : Option IndexedRequest} (h : i.Lists r) : i.request? = r := by
  cases h with
  | request tells => exact tells.request?
  | junk junk => exact junk.request?

/-- The entries of a page are those of its items, so a scan finds in it what its items tell. -/
theorem Page.filterMap_entries (p : Page) :
    p.entries.filterMap IndexEntry.request? = p.items.filterMap Item.request? := by
  rw [entries_eq, List.filterMap_filterMap]
  rfl

theorem filterMap_request? {items : List Item} {told : List (Option IndexedRequest)}
    (lists : List.Forall₂ Item.Lists items told) : items.filterMap Item.request? = told.filterMap id := by
  induction lists with
  | nil => rfl
  | cons first _ ih => rw [List.filterMap_cons, List.filterMap_cons, first.request?, ih]; rfl

/-! ## Pages -/

def ItemData.document (d : ItemData) : Document :=
  record [("data", Document.text d.text),
    ("discriminator", ofOption (fun n => number (UInt64.toNat n)) d.discriminator)]

def Item.document (i : Item) : Document :=
  record [("hash", text i.hash), ("address", ofOption text i.address),
    ("data", ofOption ItemData.document i.data), ("tree", ofOption text i.tree),
    ("leafIndex", ofOption (fun n => number (UInt32.toNat n)) i.leafIndex)]

def Page.document (p : Page) : Document :=
  record [("items", array (p.items.map Item.document)), ("cursor", ofOption text p.cursor)]

/-- A page as an index writes it. -/
def Page.response (p : Page) : Response :=
  ⟨200, .document <| record
    [("jsonrpc", text "2.0"), ("result", record [("value", p.document)]), ("id", text "1")]⟩

theorem optional_text (s : Option String) : optional text? (some (ofOption text s)) = some s :=
  @optional_ofOption String text? text (fun _ => rfl) text_ne_null s

theorem ItemData.read?_document (d : ItemData) : ItemData.read? d.document = some d := by
  rw [read?, document, record?_record rfl]
  change (optional u64? (some (ofOption _ d.discriminator)) >>= fun n => some (ItemData.mk d.text n)) = some d
  rw [optional_ofOption u64?_number fun _ => number_ne_null _]
  rfl

theorem Item.read?_document (i : Item) : Item.read? i.document = some i := by
  rw [read?, document, record?_record rfl]
  change (do
    let address ← optional text? (some (ofOption text i.address))
    let data ← optional ItemData.read? (some (ofOption ItemData.document i.data))
    let tree ← optional text? (some (ofOption text i.tree))
    return Item.mk i.hash address data tree
      (← optional u32? (some (ofOption (fun n => number (UInt32.toNat n)) i.leafIndex)))) = some i
  rw [optional_text, optional_text, optional_ofOption ItemData.read?_document fun _ => record_ne_null _,
    optional_ofOption u32?_number fun _ => number_ne_null _]
  rfl

theorem Page.read?_document (p : Page) : Page.read? p.document = some p := by
  rw [read?, document, record?_record rfl]
  change (list? Item.read? (array (p.items.map Item.document)) >>= fun items =>
    optional text? (some (ofOption text p.cursor)) >>= fun cursor => some (Page.mk items cursor)) = some p
  rw [list?_array Item.read?_document, optional_text]
  rfl

theorem Page.answers_response (p : Page) : Answers p.response p := by
  have reply : Replies p.response (some (record [("value", p.document)])) none :=
    ⟨not_fails rfl, _, _, rfl, record?_record rfl, rfl, rfl⟩
  have within : Page.Within (record [("value", p.document)]) p :=
    ⟨_, _, record?_record rfl, rfl, Page.read?_eq_some_iff.1 p.read?_document⟩
  exact .value reply (.value (record_ne_null _) within) .missing

/-- Pages that follow each other. Each names the next one, except for the last: it has no cursor, or an empty
one. -/
inductive Consecutive : List Page → Prop
  | last {p : Page} (named : p.cursor = none ∨ p.cursor = some "") : Consecutive [p]
  | more {p : Page} {next : String} {ps : List Page} (named : p.cursor = some next) (nonempty : next ≠ "")
      (rest : Consecutive ps) : Consecutive (p :: ps)

/-- What is posted for pages, the first of them at a cursor and each other one at the cursor before it. -/
def visits (owner : Address) (cursor : Option String) : List Page → List Document
  | [] => []
  | p :: ps => asking owner cursor :: visits owner p.cursor ps

theorem Page.next?_last {p : Page} (named : p.cursor = none ∨ p.cursor = some "") : p.next? = none := by
  rcases named with named | named <;> rw [next?, named] <;> rfl

theorem Page.next?_more {p : Page} {next : String} (named : p.cursor = some next) (nonempty : next ≠ "") :
    p.next? = some next := by
  simp [next?, named, nonempty]

theorem page_answers {owner : Address} {cursor : Option String} {s : Server} {r : Response}
    {rest : List Response} {p : Page} (reachable : s.isReachable) (ahead : s.responses = r :: rest)
    (answer : Answers r p) :
    page owner cursor s = (.ok p, served s (visits owner cursor [p]) rest) := by
  have given : GivesPage (s.responses.headD .exhausted) (.ok p) := by
    rw [ahead]
    exact answer
  rw [page_of_gives reachable given, ahead]
  rfl

theorem entriesFrom_of_page {owner : Address} {cursor : Option String} {s t : Server} {p : Page}
    (read : page owner cursor s = (.ok p, t)) :
    entriesFrom owner cursor s = p.next?.elim (.ok p.entries, t) fun next =>
      ((entriesFrom owner (some next) t).1.map (p.entries ++ ·), (entriesFrom owner (some next) t).2) := by
  rw [entriesFrom]
  split
  · next e t' failed =>
    rw [failed] at read
    cases read
  · next p' t' done =>
    rw [done] at read
    cases read
    cases p.next? <;> rfl

/-- A scan of consecutive pages reads each of them once, the last one included, and nothing behind it. -/
theorem entriesFrom_consecutive {pages : List Page} (consecutive : Consecutive pages) {owner : Address}
    {cursor : Option String} {s : Server} {responses rest : List Response} (reachable : s.isReachable)
    (answers : List.Forall₂ Answers responses pages) (ahead : s.responses = responses ++ rest) :
    entriesFrom owner cursor s =
      (.ok (pages.flatMap Page.entries), served s (visits owner cursor pages) rest) := by
  induction consecutive generalizing cursor s responses with
  | @last p named =>
    obtain ⟨r, _, answer, none, rfl⟩ := List.forall₂_cons_right_iff.1 answers
    obtain rfl := List.forall₂_nil_right_iff.1 none
    rw [entriesFrom_of_page (page_answers reachable ahead answer), Page.next?_last named]
    simp
  | @more p next ps named nonempty _ ih =>
    obtain ⟨r, later, answer, behind, rfl⟩ := List.forall₂_cons_right_iff.1 answers
    have first : page owner cursor s = (.ok p, served s (visits owner cursor [p]) (later ++ rest)) :=
      page_answers reachable ahead answer
    have others : entriesFrom owner (some next) (served s (visits owner cursor [p]) (later ++ rest)) =
        (.ok (ps.flatMap Page.entries), served s (visits owner cursor (p :: ps)) rest) := by
      rw [ih (s := served s _ _) reachable behind rfl]
      simp [served, visits, named]
    rw [entriesFrom_of_page first, Page.next?_more named nonempty, Option.elim_some, others, List.flatMap_cons]
    rfl

/-! ## Searches -/

/-- A conversation that asks for the entries of an owner once, and ends. -/
theorem run_once {d : IndexM α} {owner : Address} {next : IndexAnswer owner → Dialogue Address IndexAnswer _}
    {es : List IndexEntry} {a : α} {s t : Server} (asks : d.run = .ask owner next)
    (ends : next (.ok es) = .done (.ok a)) (read : entries owner s = (.ok es, t)) : run d s = (.ok a, t) := by
  rw [run, asks]
  change Dialogue.run (m := StateM Server) entries _ (next (entries owner s).1) (entries owner s).2 = _
  rw [read, ends]
  rfl

/-- However the items of requests and junk are spread over consecutive pages, a scan finds exactly the requests, in
order and each with its place; the pending ones and the first of a number are found among them. It asks for the first
page without a cursor and for each other one by the cursor of the page before. What is posted is told beside what
comes out, so the responses may be those of an index that chooses each page by the cursor it is asked for. -/
theorem scans_exactly (owner : Address) {pages : List Page} (consecutive : Consecutive pages)
    {told : List (Option IndexedRequest)} (lists : List.Forall₂ Item.Lists (pages.flatMap Page.items) told)
    {s : Server} {responses rest : List Response} (reachable : s.isReachable)
    (answers : List.Forall₂ Answers responses pages) (ahead : s.responses = responses ++ rest) :
    let requests := told.filterMap id
    let t := served s (visits owner none pages) rest
    run (fetchAll owner) s = (.ok requests, t) ∧
    run (fetchPending owner) s = (.ok (requests.filter fun r => r.request.status = .pending), t) ∧
    ∀ id, run (find owner id) s = (.ok (requests.find? fun r => r.request.requestId = id), t) := by
  have read : entries owner s = (.ok (pages.flatMap Page.entries), served s (visits owner none pages) rest) :=
    entriesFrom_consecutive consecutive reachable answers ahead
  have found : (pages.flatMap Page.entries).filterMap IndexEntry.request? = told.filterMap id := by
    rw [← filterMap_request? lists, List.filterMap_flatMap, List.filterMap_flatMap]
    exact congrArg (List.flatMap · pages) (funext Page.filterMap_entries)
  rw [← found]
  exact ⟨run_once rfl rfl read, run_once rfl rfl read, fun id => run_once rfl rfl read⟩

end Randomness.Index.Remote

namespace Randomness.Recorded

open Index Index.Remote Http

/-- A leaf of a pending request, with its address and its tree. -/
def pendingLeaf : IndexedRequest where
  request :=
    { requestId := 7, requester := Address.zero, seed := repeated 4, requestSlot := 101,
      status := .pending, randomness := Block.zero 32 }
  hash := repeated 1
  address := some (repeated 2)
  tree := some (repeated 3)
  leafIndex := 5

/-- A leaf of a fulfilled request with the same number, nowhere in particular. -/
def fulfilledLeaf : IndexedRequest where
  request := { pendingLeaf.request with status := .fulfilled, randomness := repeated 9 }
  hash := Block.zero 32
  address := none
  tree := none
  leafIndex := 0

/-- The discriminator stands in front of the pending leaf's data; no data and bad base64 follow. -/
def frontPage : Page where
  items :=
    [⟨Base58.encode pendingLeaf.hash.bytes, pendingLeaf.address.map Address.text,
        some (.inline pendingLeaf.request), pendingLeaf.tree.map Address.text, some 5⟩,
      ⟨"", none, none, none, none⟩, ⟨"", none, some ⟨"?", none⟩, none, none⟩]
  cursor := some "more"

/-- The discriminator is told apart from the fulfilled leaf's data; a bad hash and short data stand around
it. -/
def backPage : Page where
  items :=
    [⟨"0", none, some (.inline pendingLeaf.request), none, none⟩,
      ⟨Base58.encode fulfilledLeaf.hash.bytes, none, some (.apart fulfilledLeaf.request), none, none⟩,
      ⟨"", none, some ⟨"", some 0⟩, none, none⟩]
  cursor := some ""

theorem backPage_follows : Consecutive [frontPage, backPage] := .more rfl (by decide) (.last (.inr rfl))

theorem pages_list : List.Forall₂ Item.Lists ([frontPage, backPage].flatMap Page.items)
    [some pendingLeaf, none, none, none, some fulfilledLeaf, none] := by
  have badText : ∃ e, Base64.decode (Text.utf8 "?".toList) = .error e := ⟨_, by rfl⟩
  have badHash : ∃ e, Base58.decode "0".toList = .error e := ⟨_, by rfl⟩
  obtain ⟨_, badText⟩ := badText
  obtain ⟨_, badHash⟩ := badHash
  exact .cons (.request ⟨.inl rfl, rfl, rfl, rfl, .inl rfl, nofun⟩) <| .cons (.junk (.noData rfl)) <|
    .cons (.junk (.data rfl badText)) <| .cons (.junk (.hash badHash)) <|
    .cons (.request ⟨.inr rfl, rfl, rfl, rfl, .inr ⟨rfl, rfl⟩, nofun⟩) <|
    .cons (.junk (.foreign rfl (.beside rfl rfl) (.short (by decide)))) .nil

def indexServer : Server := ⟨"http://index", true, [frontPage.response, backPage.response], []⟩

/-- Both leaves are found, each as it is. -/
theorem pages_scanned :
    (run (fetchAll Address.zero) indexServer).1 = .ok [pendingLeaf, fulfilledLeaf] ∧
    (run (fetchPending Address.zero) indexServer).1 = .ok [pendingLeaf] ∧
    (run (find Address.zero 7) indexServer).1 = .ok (some pendingLeaf) ∧
    (run (find Address.zero 8) indexServer).1 = .ok none := by
  have answers : List.Forall₂ Answers indexServer.responses [frontPage, backPage] :=
    .cons frontPage.answers_response (.cons backPage.answers_response .nil)
  obtain ⟨all, pending, one⟩ :=
    scans_exactly Address.zero backPage_follows pages_list rfl answers (List.append_nil _).symm
  exact ⟨congrArg Prod.fst all, congrArg Prod.fst pending, congrArg Prod.fst (one 7), congrArg Prod.fst (one 8)⟩

end Randomness.Recorded
