import Randomness.Proofs.Scanning

/-!
How a scan goes on from response to response: it follows the cursors page by page, and the first response that is no
page ends it without a result.
-/

namespace Randomness.Index.Remote

open Document Http

/-- What is posted for pages at these cursors. -/
def posts (owner : Address) (cursors : List (Option String)) : List Document := cursors.map (asking owner)

/-- How a scan takes the responses of an index: what comes out of it, at which cursors it asks, and which responses
it leaves. It ends with the first page that names no other one, or with the first response that is no page; when
there are no more responses, the last one is a failure. -/
inductive Scan : List Response → Except LedgerError (List IndexEntry) → List (Option String) → List Response → Prop
  | complete {read rest : List Response} {pages : List Page} {told : List (Option IndexEntry)}
      (answers : List.Forall₂ Answers read pages) (consecutive : Consecutive pages)
      (yields : List.Forall₂ Item.Yields (pages.flatMap Page.items) told) :
      Scan (read ++ rest) (.ok (told.filterMap id)) (none :: pages.dropLast.map Page.cursor) rest
  | broken {read rest : List Response} {pages : List Page} {e : LedgerError}
      (answers : List.Forall₂ Answers read pages)
      (more : ∀ p ∈ pages, ∃ next, p.cursor = some next ∧ next ≠ "")
      (failed : GivesPage (rest.headD .exhausted) (.error e)) :
      Scan (read ++ rest) (.error e) (none :: pages.map Page.cursor) rest.tail

section

variable {owner : Address} {cursor : Option String} {s : Server}

/-- Nothing of what was read before is kept when a response is no page. -/
theorem entriesFrom_of_error {e : LedgerError} (reachable : s.isReachable)
    (failed : GivesPage (s.responses.headD .exhausted) (.error e)) :
    entriesFrom owner cursor s = (.error e, served s (posts owner [cursor]) s.responses.tail) := by
  have asked : page owner cursor s = (.error e, served s (posts owner [cursor]) s.responses.tail) :=
    page_of_gives reachable failed
  rw [entriesFrom]
  split
  · next e' t failed' =>
    rw [failed'] at asked
    cases asked
    rfl
  · next p t done =>
    rw [done] at asked
    cases asked

/-- The requests for consecutive pages: each one but the last names the cursor of the next request. -/
theorem visits_consecutive {pages : List Page} (consecutive : Consecutive pages) :
    visits owner cursor pages = posts owner (cursor :: pages.dropLast.map Page.cursor) := by
  induction consecutive generalizing cursor with
  | last named => rfl
  | @more p next ps named nonempty rest ih =>
    have some : ps ≠ [] := by
      intro empty
      rw [empty] at rest
      cases rest
    rw [visits, ih, List.dropLast_cons_of_ne_nil some]
    rfl

theorem entriesFrom_of_broken {read rest : List Response} {pages : List Page} {e : LedgerError}
    (answers : List.Forall₂ Answers read pages) (reachable : s.isReachable)
    (more : ∀ p ∈ pages, ∃ next, p.cursor = some next ∧ next ≠ "")
    (failed : GivesPage (rest.headD .exhausted) (.error e)) (ahead : s.responses = read ++ rest) :
    entriesFrom owner cursor s =
      (.error e, served s (posts owner (cursor :: pages.map Page.cursor)) rest.tail) := by
  induction answers generalizing cursor s with
  | nil =>
    obtain rfl : s.responses = rest := ahead
    exact entriesFrom_of_error reachable failed
  | @cons r p read pages answer _ ih =>
    obtain ⟨⟨next, named, nonempty⟩, later⟩ := List.forall_mem_cons.1 more
    have first : page owner cursor s = (.ok p, served s (posts owner [cursor]) (read ++ rest)) :=
      page_answers reachable ahead answer
    have others : entriesFrom owner (some next) (served s (posts owner [cursor]) (read ++ rest)) =
        (.error e, served s (posts owner (cursor :: some next :: pages.map Page.cursor)) rest.tail) := by
      rw [ih (s := served s _ _) reachable later rfl]
      simp [served, posts]
    rw [entriesFrom_of_page first, Page.next?_more named nonempty, Option.elim_some, others, List.map_cons, named]
    rfl

end

theorem Scan.of_error {responses : List Response} {e : LedgerError}
    (failed : GivesPage (responses.headD .exhausted) (.error e)) :
    Scan responses (.error e) [none] responses.tail := by
  have scan : Scan ([] ++ responses) (.error e) [none] responses.tail := .broken .nil (by simp) failed
  exact scan

/-- However many responses there are and whatever is in them, there is a way in which a scan takes them. -/
theorem exists_scan (responses : List Response) : ∃ out cursors rest, Scan responses out cursors rest := by
  induction responses with
  | nil =>
    have failed : Fails Response.exhausted := ⟨by decide, by decide⟩
    exact ⟨_, _, _, .of_error (.status failed)⟩
  | cons r rest ih =>
    obtain ⟨first, given⟩ := exists_gives r
    cases first with
    | error e => exact ⟨_, _, _, .of_error given⟩
    | ok p =>
      have answer : Answers r p := given
      by_cases named : p.cursor = none ∨ p.cursor = some ""
      · exact ⟨_, _, _, .complete (.cons answer .nil) (.last named) (forall₂_yields _)⟩
      · obtain ⟨next, named, nonempty⟩ : ∃ next, p.cursor = some next ∧ next ≠ "" := by
          cases cursor : p.cursor with
          | none => exact absurd (.inl cursor) named
          | some next => exact ⟨next, rfl, fun empty => named (.inr (cursor.trans (congrArg some empty)))⟩
        obtain ⟨out, cursors, left, scan⟩ := ih
        cases scan with
        | complete answers consecutive _ =>
          exact ⟨_, _, _, .complete (.cons answer answers) (.more named nonempty consecutive) (forall₂_yields _)⟩
        | broken answers more failed =>
          exact ⟨_, _, _, .broken (.cons answer answers)
            (List.forall_mem_cons.2 ⟨⟨next, named, nonempty⟩, more⟩) failed⟩

/-- A scan follows the cursors exactly. Its first request names no cursor and each other one the cursor of the page
before; it stops at the first page that names none, or an empty one, and its result consists of the entries that the
items of the pages tell, in their order. A response before that page that is none, for whatever reason, is the scan's
error, and nothing of the pages before it is kept. -/
theorem follows_cursors (owner : Address) {s : Server} (reachable : s.isReachable) :
    (∃ out cursors rest, Scan s.responses out cursors rest) ∧
    ∀ out cursors rest, Scan s.responses out cursors rest →
      entries owner s = (out, served s (posts owner cursors) rest) := by
  refine ⟨exists_scan s.responses, fun out cursors rest scan => ?_⟩
  generalize ahead : s.responses = responses at scan
  cases scan with
  | @complete read rest pages told answers consecutive yields =>
    have listed : pages.flatMap Page.entries = told.filterMap id := by
      rw [← filterMap_listed? yields, List.filterMap_flatMap]
      rfl
    rw [entries, entriesFrom_consecutive consecutive reachable answers ahead, visits_consecutive consecutive, listed]
  | broken answers more failed => exact entriesFrom_of_broken answers reachable more failed ahead

end Randomness.Index.Remote

namespace Randomness.Recorded

open Document Index Index.Remote Http

def busy : Document := record [("code", integer (-32000)), ("message", text "busy")]

/-- An error stands beside the page. -/
def busyResponse : Response :=
  ⟨200, .document <| record
    [("jsonrpc", text "2.0"), ("result", record [("value", backPage.document)]),
      ("error", busy), ("id", text "1")]⟩

def busyServer : Server := ⟨"http://index", true, [frontPage.response, busyResponse, backPage.response], []⟩

/-- The second response is asked for at the cursor of the first one, and its error is what comes out: the page beside
it and the page before it are lost, and the third response is never asked for. -/
theorem busy_scanned : entries Address.zero busyServer =
    (.error (.indexer (-32000) "busy"),
      served busyServer (posts Address.zero [none, some "more"]) [backPage.response]) := by
  have page : Tells Page.Within (some (record [("value", backPage.document)])) (some backPage) :=
    .value (record_ne_null _) ⟨_, _, record?_record rfl, rfl, Page.read?_eq_some_iff.1 backPage.read?_document⟩
  have reply : Replies busyResponse (some (record [("value", backPage.document)])) (some busy) :=
    ⟨not_fails rfl, _, _, rfl, record?_record rfl, rfl, rfl⟩
  have fault : Fault.Shown busy ⟨-32000, "busy"⟩ :=
    ⟨_, record?_record rfl, rfl, by decide, by decide, rfl⟩
  have error : GivesPage busyResponse (.error (.indexer (-32000) "busy")) :=
    .fault reply page (.value (record_ne_null _) fault)
  have scan : Scan ([frontPage.response] ++ [busyResponse, backPage.response]) (.error (.indexer (-32000) "busy"))
      [none, some "more"] [backPage.response] :=
    .broken (.cons frontPage.answers_response .nil) (by simp [frontPage]) error
  exact (follows_cursors Address.zero rfl).2 _ _ _ scan

end Randomness.Recorded
