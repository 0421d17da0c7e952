import Randomness.Proofs.Paging

/-!
The shape of items: which documents are items at all, and what becomes of a scan when one item of a page is replaced
by any other document.
-/

namespace Randomness.Index.Remote

open Document Http

/-! ## Documents that are no items -/

/-- A document that is no data of an item. -/
inductive ItemData.Misshapen (d : Document) : Prop
  | form (unread : d.record? ["data", "discriminator"] = none)
  | data {m : Members} (members : d.record? ["data", "discriminator"] = some m)
      (bad : ∀ s, m "data" ≠ some (Document.text s))
  | discriminator {m : Members} {e : Document} (members : d.record? ["data", "discriminator"] = some m)
      (given : m "discriminator" = some e) (there : e ≠ null) (bad : ∀ n : UInt64, e ≠ number n.toNat)

/-- The members of an item. -/
abbrev Item.names : List String := ["hash", "address", "data", "tree", "leafIndex"]

/-- A document that is no item: it is no record, has no text as its hash, or has a member of another form. -/
inductive Item.Misshapen (d : Document) : Prop
  | form (unread : d.record? names = none)
  | hash {m : Members} (members : d.record? names = some m) (bad : ∀ s, m "hash" ≠ some (text s))
  | address {m : Members} {e : Document} (members : d.record? names = some m) (given : m "address" = some e)
      (there : e ≠ null) (bad : ∀ s, e ≠ text s)
  | data {m : Members} {e : Document} (members : d.record? names = some m) (given : m "data" = some e)
      (there : e ≠ null) (bad : ItemData.Misshapen e)
  | tree {m : Members} {e : Document} (members : d.record? names = some m) (given : m "tree" = some e)
      (there : e ≠ null) (bad : ∀ s, e ≠ text s)
  | leafIndex {m : Members} {e : Document} (members : d.record? names = some m) (given : m "leafIndex" = some e)
      (there : e ≠ null) (bad : ∀ n : UInt32, e ≠ number n.toNat)

section

variable {d : Document}

theorem text?_eq_none_iff : d.text? = none ↔ ∀ s, d ≠ text s := by
  simp only [Option.eq_none_iff_forall_ne_some, ne_eq, text?_eq_some_iff]

theorem u32?_eq_none_iff : d.u32? = none ↔ ∀ n : UInt32, d ≠ number n.toNat := by
  simp only [Option.eq_none_iff_forall_ne_some, ne_eq, u32?_eq_some_iff]

theorem u64?_eq_none_iff : d.u64? = none ↔ ∀ n : UInt64, d ≠ number n.toNat := by
  simp only [Option.eq_none_iff_forall_ne_some, ne_eq, u64?_eq_some_iff]

theorem required_text_eq_none_iff {d : Option Document} : required text? d = none ↔ ∀ s, d ≠ some (text s) := by
  simp only [Option.eq_none_iff_forall_ne_some, ne_eq, required_eq_some_iff, text?_eq_some_iff,
    exists_eq_right]

/-- Reading the data of an item fails exactly for documents that are none. -/
theorem ItemData.read?_eq_none_iff : ItemData.read? d = none ↔ Misshapen d := by
  constructor
  · intro unread
    by_contra fits
    obtain ⟨m, members⟩ := Option.ne_none_iff_exists'.1 fun unread => fits (.form unread)
    obtain ⟨s, data⟩ := Option.ne_none_iff_exists'.1 fun bad =>
      fits (.data members (required_text_eq_none_iff.1 bad))
    obtain ⟨n, discriminator⟩ := exists_optional fun e given there bad =>
      fits (.discriminator members given there (u64?_eq_none_iff.1 bad))
    simp [read?, members, data, discriminator] at unread
  · intro bad
    cases bad with
    | form unread => simp [read?, unread]
    | data members bad => simp [read?, members, required_text_eq_none_iff.2 bad]
    | discriminator members given there bad =>
      simp [read?, members, optional_eq_none_iff.2 ⟨_, given, there, u64?_eq_none_iff.2 bad⟩]

/-- Reading an item fails exactly for documents that are none. -/
theorem Item.read?_eq_none_iff : Item.read? d = none ↔ Misshapen d := by
  constructor
  · intro unread
    by_contra fits
    obtain ⟨m, members⟩ := Option.ne_none_iff_exists'.1 fun unread => fits (.form unread)
    obtain ⟨hash, hashed⟩ := Option.ne_none_iff_exists'.1 fun bad =>
      fits (.hash members (required_text_eq_none_iff.1 bad))
    obtain ⟨address, addressed⟩ := exists_optional fun e given there bad =>
      fits (.address members given there (text?_eq_none_iff.1 bad))
    obtain ⟨data, filled⟩ := exists_optional fun e given there bad =>
      fits (.data members given there (ItemData.read?_eq_none_iff.1 bad))
    obtain ⟨tree, planted⟩ := exists_optional fun e given there bad =>
      fits (.tree members given there (text?_eq_none_iff.1 bad))
    obtain ⟨leaf, indexed⟩ := exists_optional fun e given there bad =>
      fits (.leafIndex members given there (u32?_eq_none_iff.1 bad))
    simp [read?, members, hashed, addressed, filled, planted, indexed] at unread
  · intro bad
    cases bad with
    | form unread => simp [read?, unread]
    | hash members bad =>
        simp [read?, members, required_text_eq_none_iff.2 bad]
    | address members given there bad =>
        simp [read?, members, optional_eq_none_iff.2 ⟨_, given, there, text?_eq_none_iff.2 bad⟩]
    | data members given there bad =>
        simp [read?, members, optional_eq_none_iff.2 ⟨_, given, there, ItemData.read?_eq_none_iff.2 bad⟩]
    | tree members given there bad =>
        simp [read?, members, optional_eq_none_iff.2 ⟨_, given, there, text?_eq_none_iff.2 bad⟩]
    | leafIndex members given there bad =>
        simp [read?, members, optional_eq_none_iff.2 ⟨_, given, there, u32?_eq_none_iff.2 bad⟩]

end

/-! ## Pages before their items are read -/

/-- A response carries a page with these documents in the place of its items, at this cursor. -/
def Carries (r : Response) (items : List Document) (cursor : Option String) : Prop :=
  ∃ d error m w n, Replies r (some d) error ∧ Tells Fault.Shown error none ∧ d.record? ["value"] = some m ∧
    m "value" = some w ∧ w.record? ["items", "cursor"] = some n ∧ n "items" = some (array items) ∧
    Tells (Is text) (n "cursor") cursor

theorem Replies.result_eq {r : Response} {result result' error error' : Option Document}
    (h : Replies r result error) (h' : Replies r result' error') : result = result' := by
  obtain ⟨_, d, m, body, members, rfl, _⟩ := h
  obtain ⟨_, d', m', body', members', rfl, _⟩ := h'
  obtain rfl := Option.some.inj (body.symm.trans body')
  obtain rfl := Option.some.inj (members.symm.trans members')
  rfl

/-- A page is given if all its items are read. -/
theorem Carries.given {r : Response} {items : List Document} {cursor : Option String} {list : List Item}
    (h : Carries r items cursor) (each : items.mapM Item.read? = some list) : Answers r ⟨list, cursor⟩ := by
  obtain ⟨d, error, m, w, n, reply, silent, record, value, members, told, named⟩ := h
  have there : d ≠ null := by
    rintro rfl
    cases record
  have page : Page.Within d ⟨list, cursor⟩ :=
    ⟨m, w, record, value, n, items, members, told, mapM_read?_eq_some_iff.1 each, named⟩
  exact .value reply (.value there page) silent

/-- The items of a page are read all at once: if one of them is not, there is no page. -/
theorem Carries.lost {r : Response} {items : List Document} {cursor : Option String} (h : Carries r items cursor)
    (bad : items.mapM Item.read? = none) : GivesPage r (.error (.http .body)) := by
  obtain ⟨d, error, m, w, n, reply, silent, record, value, members, told, named⟩ := h
  refine .garbled reply.1 fun result error' a f reply' page _ => ?_
  obtain rfl := reply.result_eq reply'
  cases page with
  | null => cases record
  | value there page =>
    obtain ⟨m', w', record', value', n', items', members', told', each, _⟩ := page
    obtain rfl := Option.some.inj (record.symm.trans record')
    obtain rfl := Option.some.inj (value.symm.trans value')
    obtain rfl := Option.some.inj (members.symm.trans members')
    obtain rfl := array.inj (Option.some.inj (told.symm.trans told'))
    rw [mapM_read?_eq_some_iff.2 each] at bad
    cases bad

/-! ## Scans around an item -/

theorem Page.entries_around (left right : List Item) (i : Item) (cursor : Option String) :
    Page.entries ⟨left ++ i :: right, cursor⟩ =
      left.filterMap Item.listed? ++ i.listed?.toList ++ right.filterMap Item.listed? := by
  have own : [i].filterMap Item.listed? = i.listed?.toList := by
    cases h : i.listed? <;> simp [h]
  rw [Page.entries_eq, ← List.singleton_append, List.filterMap_append, List.filterMap_append, own,
    List.append_assoc]

namespace Consecutive

variable {front back pages : List Page} {p q : Page}

theorem of_cons (h : Consecutive (q :: pages)) (more : pages ≠ []) :
    ∃ next, q.cursor = some next ∧ next ≠ "" ∧ Consecutive pages := by
  cases h with
  | last => exact absurd rfl more
  | more named nonempty rest => exact ⟨_, named, nonempty, rest⟩

/-- Every page before another one names it. -/
theorem named (h : Consecutive (front ++ p :: back)) : ∀ q ∈ front, ∃ next, q.cursor = some next ∧ next ≠ "" := by
  induction front with
  | nil => simp
  | cons q front ih =>
    obtain ⟨next, named, nonempty, rest⟩ := of_cons h (by simp)
    exact List.forall_mem_cons.2 ⟨⟨next, named, nonempty⟩, ih rest⟩

/-- Only the cursors decide which pages follow each other. -/
theorem replace (h : Consecutive (front ++ p :: back)) (same : q.cursor = p.cursor) :
    Consecutive (front ++ q :: back) := by
  induction front with
  | nil =>
    cases h with
    | last named => exact .last (same ▸ named)
    | more named nonempty rest => exact .more (same.trans named) nonempty rest
  | cons o front ih =>
    obtain ⟨next, named, nonempty, rest⟩ := of_cons h (by simp)
    exact .more named nonempty (ih rest)

end Consecutive

section

variable {owner : Address} {s : Server} {before after rest : List Response} {front back : List Page}
  {left right : List Item} {lefts rights : List Document} {r : Response} {cursor : Option String}

/-- A page among others gives what its items list, between what stands before it and what stands after it. -/
theorem entries_of_page {i : Item} (consecutive : Consecutive (front ++ ⟨left ++ i :: right, cursor⟩ :: back))
    (reachable : s.isReachable) (answers : List.Forall₂ Answers before front)
    (answers' : List.Forall₂ Answers after back) (answer : Answers r ⟨left ++ i :: right, cursor⟩)
    (ahead : s.responses = before ++ r :: (after ++ rest)) :
    entries owner s =
      (.ok (front.flatMap Page.entries ++ left.filterMap Item.listed? ++ i.listed?.toList ++
          (right.filterMap Item.listed? ++ back.flatMap Page.entries)),
        served s (visits owner none (front ++ ⟨left ++ i :: right, cursor⟩ :: back)) rest) := by
  have all : List.Forall₂ Answers (before ++ r :: after) (front ++ ⟨left ++ i :: right, cursor⟩ :: back) :=
    List.rel_append answers (.cons answer answers')
  have split : s.responses = (before ++ r :: after) ++ rest := by rw [ahead]; simp
  rw [entries, entriesFrom_consecutive consecutive reachable all split, List.flatMap_append, List.flatMap_cons,
    Page.entries_around]
  simp only [List.append_assoc]

/-- A page with a misshapen item ends the scan without a result, whatever else it has. -/
theorem entries_of_misshapen {d : Document}
    (named : ∀ p ∈ front, ∃ next, p.cursor = some next ∧ next ≠ "") (reachable : s.isReachable)
    (answers : List.Forall₂ Answers before front) (carried : Carries r (lefts ++ d :: rights) cursor)
    (bad : Item.Misshapen d) (ahead : s.responses = before ++ r :: rest) :
    entries owner s = (.error (.http .body), served s (posts owner (none :: front.map Page.cursor)) rest) := by
  have none : (lefts ++ d :: rights).mapM Item.read? = none :=
    mapM_eq_none_of_mem (by simp) (Item.read?_eq_none_iff.2 bad)
  have failed : GivesPage ((r :: rest).headD .exhausted) (.error (.http .body)) := carried.lost none
  exact entriesFrom_of_broken answers reachable named failed ahead

theorem visits_replace {p q : Page} (same : q.cursor = p.cursor) :
    visits owner cursor (front ++ q :: back) = visits owner cursor (front ++ p :: back) := by
  induction front generalizing cursor with
  | nil => rw [List.nil_append, List.nil_append, visits, visits, same]
  | cons o front ih => rw [List.cons_append, List.cons_append, visits, visits, ih]

end

/-- What becomes of a scan when an item on one of its pages is replaced by any document. If the document has the shape
of an item, everything that the other items list is still there, in its order, with what the document itself lists in
its place. If it has not, the scan ends in an error, and nothing of any page is kept. -/
theorem shape_decides (owner : Address) {front back : List Page} {left right : List Item} {i : Item}
    {cursor : Option String} (consecutive : Consecutive (front ++ ⟨left ++ i :: right, cursor⟩ :: back))
    {s : Server} {before after rest : List Response} {r r' : Response} {lefts rights : List Document} (d : Document)
    (reachable : s.isReachable) (answers : List.Forall₂ Answers before front)
    (answers' : List.Forall₂ Answers after back) (answer : Answers r ⟨left ++ i :: right, cursor⟩)
    (carried : Carries r' (lefts ++ d :: rights) cursor) (readLeft : lefts.mapM Item.read? = some left)
    (readRight : rights.mapM Item.read? = some right) (ahead : s.responses = before ++ r :: (after ++ rest)) :
    let earlier := front.flatMap Page.entries ++ left.filterMap Item.listed?
    let later := right.filterMap Item.listed? ++ back.flatMap Page.entries
    let visited := visits owner none (front ++ ⟨left ++ i :: right, cursor⟩ :: back)
    let t := { s with responses := before ++ r' :: (after ++ rest) }
    entries owner s = (.ok (earlier ++ i.listed?.toList ++ later), served s visited rest) ∧
    (¬ Item.Misshapen d → entries owner t =
      (.ok (earlier ++ ((Item.read? d).bind Item.listed?).toList ++ later), served t visited rest)) ∧
    (Item.Misshapen d → entries owner t =
      (.error (.http .body), served t (posts owner (none :: front.map Page.cursor)) (after ++ rest))) := by
  intro earlier later visited t
  refine ⟨entries_of_page consecutive reachable answers answers' answer ahead, fun fits => ?_, fun bad => ?_⟩
  · obtain ⟨j, read⟩ := Option.ne_none_iff_exists'.1 fun unread => fits (Item.read?_eq_none_iff.1 unread)
    have each : (lefts ++ d :: rights).mapM Item.read? = some (left ++ j :: right) := by
      rw [List.mapM_append, List.mapM_cons, readLeft, read, readRight]
      rfl
    have page : Answers r' ⟨left ++ j :: right, cursor⟩ := carried.given each
    have consecutive' : Consecutive (front ++ ⟨left ++ j :: right, cursor⟩ :: back) := consecutive.replace rfl
    have same : visits owner none (front ++ ⟨left ++ j :: right, cursor⟩ :: back) = visited := visits_replace rfl
    have scanned : entries owner t = _ := entries_of_page consecutive' reachable answers answers' page rfl
    rw [scanned, read, same]
    rfl
  · exact entries_of_misshapen consecutive.named reachable answers carried bad rfl

end Randomness.Index.Remote

namespace Randomness.Recorded

open Document Index Index.Remote Http

/-- Documents that are no items: without a hash, with a number as hash, with a leaf index above 32 bits, with a
negative discriminator, and no record at all. -/
def oddities : List Document :=
  [record [("tree", null)], record [("hash", number 1)],
    record [("hash", text ""), ("leafIndex", number 4294967296)],
    record [("hash", text ""), ("data", record [("data", text ""), ("discriminator", integer (-1))])],
    text "item"]

theorem oddities_misshapen : ∀ d ∈ oddities, Remote.Item.Misshapen d := by
  intro d mem
  apply Remote.Item.read?_eq_none_iff.1
  simp only [oddities, List.mem_cons, List.not_mem_nil, or_false] at mem
  rcases mem with rfl | rfl | rfl | rfl | rfl <;> rfl

/-- The item of the leaf that waits. -/
def pendingItem : Remote.Item :=
  ⟨Base58.encode pendingLeaf.hash.bytes, pendingLeaf.address.map Address.text, some (.inline pendingLeaf.request),
    pendingLeaf.tree.map Address.text, some 5⟩

def pendingEntry : IndexEntry :=
  ⟨pendingLeaf.hash, pendingLeaf.address, pendingLeaf.tree, 5, Kind.compressedRequest.encode pendingLeaf.request⟩

theorem pendingItem_listed : pendingItem.listed? = some pendingEntry := by
  have parses : pendingItem.Parses pendingEntry :=
    ⟨⟨_, rfl, ItemData.means_inline _⟩, Base58.decode_encode _, names_text pendingLeaf.address,
      names_text pendingLeaf.tree, .inl rfl⟩
  exact Remote.Item.listed?_eq_some_iff.2 parses

theorem pendingItem_alone : [pendingItem].filterMap Remote.Item.listed? = [pendingEntry] :=
  List.filterMap_cons_some pendingItem_listed

/-- An item without data. -/
def bareItem : Remote.Item := ⟨"", none, none, none, none⟩

theorem bareItem_listed : bareItem.listed? = none := rfl

/-- A page with the waiting leaf in front of any document. -/
def pageWith (d : Document) : Response :=
  ⟨200, .document <| record [("result", record [("value",
    record [("items", array [pendingItem.document, d]), ("cursor", null)])])]⟩

theorem pageWith_carries (d : Document) : Carries (pageWith d) ([pendingItem.document] ++ d :: []) none :=
  ⟨_, _, _, _, _, ⟨not_fails rfl, _, _, rfl, record?_record rfl, rfl, rfl⟩, .missing, record?_record rfl, rfl,
    record?_record rfl, rfl, .null⟩

theorem pageWith_answers (i : Remote.Item) : Answers (pageWith i.document) ⟨[pendingItem] ++ i :: [], none⟩ := by
  refine (pageWith_carries i.document).given ?_
  simp [Remote.Item.read?_document]

def frontLeaf : Page := ⟨[pendingItem], some "more"⟩

theorem frontLeaf_entries : frontLeaf.entries = [pendingEntry] := pendingItem_alone

/-- The page of one leaf before the page with a document in it. -/
def serverWith (d : Document) : Server := ⟨"http://index", true, [frontLeaf.response, pageWith d], []⟩

theorem frontLeaf_follows (i : Remote.Item) : Consecutive ([frontLeaf] ++ ⟨[pendingItem] ++ i :: [], none⟩ :: []) :=
  .more rfl (by decide) (.last (.inl rfl))

theorem frontLeaf_answers : List.Forall₂ Answers [frontLeaf.response] [frontLeaf] :=
  .cons frontLeaf.answers_response .nil

/-- The leaf stands on both pages, and is found on both of them beside an item without data. Each of the documents
that are no items makes a scan lose both when it stands there instead. -/
theorem oddities_abort :
    (entries Address.zero (serverWith bareItem.document)).1 = .ok [pendingEntry, pendingEntry] ∧
    ∀ d ∈ oddities, (entries Address.zero (serverWith d)).1 = .error (.http .body) := by
  constructor
  · have found : entries Address.zero (serverWith bareItem.document) = _ :=
      entries_of_page (frontLeaf_follows bareItem) rfl frontLeaf_answers .nil (pageWith_answers bareItem) rfl
    rw [found]
    simp only [List.flatMap_cons, List.flatMap_nil, List.filterMap_nil, frontLeaf_entries, pendingItem_alone,
      bareItem_listed]
    rfl
  · intro d mem
    have lost : entries Address.zero (serverWith d) = _ :=
      entries_of_misshapen (frontLeaf_follows bareItem).named rfl frontLeaf_answers (pageWith_carries d)
        (oddities_misshapen d mem) rfl
    rw [lost]

/-- Another leaf in the item's place is found between the others; a document without a hash is the end of them. -/
theorem leaf_replaced :
    (entries Address.zero (serverWith pendingItem.document)).1 = .ok [pendingEntry, pendingEntry, pendingEntry] ∧
    (entries Address.zero (serverWith (record [("tree", null)]))).1 = .error (.http .body) := by
  have replaced (d : Document) := shape_decides Address.zero (frontLeaf_follows bareItem) d
    (s := serverWith bareItem.document) rfl frontLeaf_answers .nil (pageWith_answers bareItem) (pageWith_carries d)
    (by simp [Remote.Item.read?_document]) rfl rfl
  constructor
  · have fits : ¬ Remote.Item.Misshapen pendingItem.document := by
      rw [← Remote.Item.read?_eq_none_iff, Remote.Item.read?_document]
      exact Option.some_ne_none _
    have found : entries Address.zero (serverWith pendingItem.document) = _ := (replaced _).2.1 fits
    rw [found, Remote.Item.read?_document, Option.bind_some, pendingItem_listed, pendingItem_alone, List.flatMap_cons,
      frontLeaf_entries]
    rfl
  · have lost : entries Address.zero (serverWith (record [("tree", null)])) = _ :=
      (replaced _).2.2 (oddities_misshapen _ (by simp [oddities]))
    rw [lost]

end Randomness.Recorded
