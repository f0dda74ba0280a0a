import SentinelAgent.Scanner.OsvComplete

/- A service that answers from one database, as far as it answers: what is found of a package
   does not depend on what else is asked about. -/
namespace SentinelAgent.Osv
open Paged

/- The page of each query, and the record of each advisory that there is. -/
structure Database where
  page : BatchQuery → BatchResult
  record : String → Option OsvVulnerability

structure Serves (database : Database) (service : Service) : Prop where
  batch : ∀ number queries attempt status body results,
    service.batch number queries attempt = .response status body (.ok results) →
      status.isSuccess = true → results = queries.map database.page
  found : ∀ id attempt status body record,
    service.detail id attempt = .response status body (.ok record) →
      status.isSuccess = true → database.record id = some record
  gone : ∀ id attempt status body read,
    service.detail id attempt = .response status body read →
      status.code = 404 → database.record id = none

/- The pages of a package, each under the token that the one before names. -/
inductive Reached (database : Database) (q : OsvQuery) : Option String → Prop
  | first : Reached database q none
  | next {asked : Option String} {token : String} :
    Reached database q asked → (database.page ⟨q, asked⟩).next = some token →
      Reached database q (some token)

def Listed (database : Database) (q : OsvQuery) (id : String) : Prop :=
  ∃ asked, Reached database q asked ∧ id ∈ (database.page ⟨q, asked⟩).vulns

variable {database : Database} {service : Service} {packages : List OsvQuery} {Score : Type}
  {baseScore : OsvSeverity → Option Score}

theorem postAttempts_ok {answers : Nat → Reply (List BatchResult)} {left attempt : Nat}
    {lastError : String} {results : List BatchResult}
    (posted : postAttempts answers left attempt lastError = .ok results) :
    ∃ attempt status body, answers attempt = .response status body (.ok results) ∧
      status.isSuccess = true := by
  induction left generalizing attempt lastError with
  | zero => cases posted
  | succ left ih =>
    unfold postAttempts at posted
    split at posted
    · exact ih posted
    · rename_i status body read answered
      split at posted
      · rename_i success
        cases read with
        | ok read =>
          cases posted
          exact ⟨attempt, status, body, answered, success⟩
        | error e => cases posted
      · simp only at posted
        split at posted
        · exact ih posted
        · cases posted

theorem postBatch_ok (serves : Serves database service) {number : Nat} {queries : List BatchQuery}
    {results : List BatchResult} (posted : postBatch service number queries = .ok results) :
    results = queries.map database.page := by
  obtain ⟨attempt, status, body, answered, success⟩ := postAttempts_ok posted
  exact serves.batch number queries attempt status body results answered success

/- What is fetched for an advisory is its record, unless nothing is. -/
theorem detailAttempts_cases (baseScore : OsvSeverity → Option Score)
    (serves : Serves database service) (keep : String → String → Bool)
    (id : String) (left attempt : Nat) (lastError : String) :
    (∃ e, detailAttempts baseScore keep (service.detail id) left attempt lastError = .failed e) ∨
    (∃ record, database.record id = some record ∧
      detailAttempts baseScore keep (service.detail id) left attempt lastError =
        .found (fromRecord baseScore keep record)) ∨
    (database.record id = none ∧
      detailAttempts baseScore keep (service.detail id) left attempt lastError = .gone) := by
  induction left generalizing attempt lastError with
  | zero => exact Or.inl ⟨_, rfl⟩
  | succ left ih =>
    unfold detailAttempts
    cases answered : service.detail id attempt with
    | networkError e => exact ih (attempt + 1) _
    | response status body read =>
      simp only
      split
      · rename_i success
        cases read with
        | ok record =>
          exact Or.inr (Or.inl ⟨record, serves.found id attempt status body record answered success,
            rfl⟩)
        | error e => exact ih (attempt + 1) _
      · split
        · rename_i missing
          exact Or.inr (Or.inr ⟨serves.gone id attempt status body read answered missing, rfl⟩)
        · split
          · exact ih (attempt + 1) _
          · exact Or.inl ⟨_, rfl⟩

theorem foundIn_fetchDetail (serves : Serves database service) {id : String}
    {advisory : Advisory Score}
    (found : foundIn (fetchDetail service packages baseScore id) = some advisory) :
    ∃ record, database.record id = some record ∧
      advisory = fromRecord baseScore (queried packages) record := by
  have cases_of := detailAttempts_cases baseScore serves (queried packages) id
    osvAttempts 0 ""
  unfold fetchDetail at found
  obtain ⟨e, failed⟩ | ⟨record, there, fetched⟩ | ⟨_, gone⟩ := cases_of
  · rw [failed] at found
    cases found
  · rw [fetched] at found
    exact ⟨record, there, (Option.some.inj found).symm⟩
  · rw [gone] at found
    cases found

theorem fetchDetail_record (serves : Serves database service) {id : String}
    {record : OsvVulnerability} (there : database.record id = some record)
    (fetched : isFailed (fetchDetail service packages baseScore id) = false) :
    foundIn (fetchDetail service packages baseScore id) =
      some (fromRecord baseScore (queried packages) record) := by
  have cases_of := detailAttempts_cases baseScore serves (queried packages) id
    osvAttempts 0 ""
  unfold fetchDetail at fetched ⊢
  obtain ⟨e, failed⟩ | ⟨other, same, found⟩ | ⟨absent, _⟩ := cases_of
  · rw [failed] at fetched
    cases fetched
  · rw [there] at same
    cases same
    rw [found]
    rfl
  · rw [there] at absent
    cases absent

/- What is known of each package is on its pages in the database, and so is what is waited for. -/
structure Within (database : Database) (packages : List OsvQuery) (ids : List (List String))
    (pending : List (Nat × String)) : Prop where
  size : ids.length = packages.length
  listed : ∀ (i : Nat) (q : OsvQuery) (known : List String), packages[i]? = some q →
    ids[i]? = some known → ∀ id ∈ known, Listed database q id
  reached : ∀ entry ∈ pending, ∃ q, packages[entry.1]? = some q ∧
    Reached database q (some entry.2)

/- The packages asked about, with pages that there are. -/
def Asked (database : Database) (packages : List OsvQuery) (entries : List (Nat × Option String)) :
    Prop :=
  ∀ entry ∈ entries, ∃ q, packages[entry.1]? = some q ∧ Reached database q entry.2

section Batches
variable {words : Wording} {p : Progress} {entries : List (Nat × Option String)}

theorem within_one {ids : List (List String)} {pending : List (Nat × String)} {i : Nat}
    {asked : Option String} {query : BatchQuery}
    (within : Within database packages ids pending)
    (reached : ∃ q, packages[i]? = some q ∧ Reached database q asked)
    (asks : Asks packages i asked query) :
    ∃ target, ids[i]? = some target ∧
      Within database packages (ids.set i ((database.page query).vulns.foldl addId target))
        (pending ++ ((database.page query).next.map fun token => (i, token)).toList) := by
  obtain ⟨q, there, page⟩ := reached
  obtain ⟨same, token⟩ := asks
  have about : query = ⟨q, asked⟩ := by
    rw [there] at same
    cases query
    cases same
    cases token
    rfl
  subst about
  have inside : i < ids.length := by
    rw [within.size]
    exact (List.getElem?_eq_some_iff.mp there).1
  have found : ids[i]? = some ids[i] := List.getElem?_eq_getElem inside
  refine ⟨ids[i], found, ⟨?_, ?_, ?_⟩⟩
  · rw [List.length_set]
    exact within.size
  · intro j other known at_j known_j id member
    by_cases here : i = j
    · subst here
      rw [List.getElem?_set_self inside] at known_j
      cases known_j
      rw [there] at at_j
      cases at_j
      cases (mem_addIds _ _).mp member with
      | inl before => exact within.listed i q _ there found id before
      | inr now => exact ⟨asked, page, now⟩
    · rw [List.getElem?_set_ne here] at known_j
      exact within.listed j other known at_j known_j id member
  · intro entry member
    cases List.mem_append.mp member with
    | inl before => exact within.reached entry before
    | inr now =>
      cases names : (database.page ⟨q, asked⟩).next with
      | none =>
        rw [names] at now
        cases now
      | some token =>
        rw [names] at now
        cases List.mem_singleton.mp now
        exact ⟨q, there, Reached.next page names⟩

theorem within_results {ids : List (List String)} {outcome : MergeOutcome}
    {queries : List BatchQuery}
    (asked : Asked database packages entries)
    (asks : List.Forall₂ (fun entry q => Asks packages entry.1 entry.2 q) entries queries)
    (within : Within database packages ids outcome.nextPages) :
    Within database packages
        (((queries.map database.page).zip (entries.map Prod.fst)).foldl mergeOne (ids, outcome)).1
        (((queries.map database.page).zip (entries.map Prod.fst)).foldl mergeOne
          (ids, outcome)).2.nextPages ∧
      (((queries.map database.page).zip (entries.map Prod.fst)).foldl mergeOne
        (ids, outcome)).2.lengthMismatch = outcome.lengthMismatch := by
  induction asks generalizing ids outcome with
  | nil => exact ⟨within, rfl⟩
  | @cons entry query entries queries first _ ih =>
    obtain ⟨target, there, next⟩ := within_one within (asked entry List.mem_cons_self) first
    rw [List.map_cons, List.map_cons, List.zip_cons_cons, List.foldl_cons, mergeOne_some there]
    exact ih (fun entry member => asked entry (List.mem_cons_of_mem _ member)) next

/- The answers to all that was asked are merged without a mismatch. -/
theorem within_merge {ids : List (List String)} {queries : List BatchQuery}
    (asked : Asked database packages entries)
    (asks : List.Forall₂ (fun entry q => Asks packages entry.1 entry.2 q) entries queries)
    (within : Within database packages ids []) :
    Within database packages
        (mergeBatchResults ids (entries.map Prod.fst) (queries.map database.page)).1
        (mergeBatchResults ids (entries.map Prod.fst) (queries.map database.page)).2.nextPages ∧
      (mergeBatchResults ids (entries.map Prod.fst)
        (queries.map database.page)).2.lengthMismatch = false := by
  have lengths : (queries.map database.page).length = (entries.map Prod.fst).length := by
    rw [List.length_map, List.length_map, asks.length_eq]
  have start : Within database packages ids (MergeOutcome.mk []
      (decide ((queries.map database.page).length ≠ (entries.map Prod.fst).length))).nextPages :=
    within
  obtain ⟨merged, mismatch⟩ := within_results asked asks start
  refine ⟨merged, mismatch.trans ?_⟩
  exact decide_eq_false fun differs => differs lengths

/- What is said of the progress: what it keeps, and that the answers are from the database. -/
structure Served (database : Database) (packages : List OsvQuery) (p : Progress) : Prop where
  within : Within database packages p.ids p.pendingPages
  answers : ∀ e ∈ p.log, ∀ results, e.answer = .ok results → results = e.queries.map database.page

theorem served_askBatch (serves : Serves database service) {indices : List Nat}
    {pageTokens : Option (List String)} (numbers : indices = entries.map Prod.fst)
    (tokens : ∀ (n : Nat) (entry : Nat × Option String), entries[n]? = some entry →
      (pageTokens.bind fun tokens => tokens[n]?) = entry.2)
    (asked : Asked database packages entries) (served : Served database packages p) :
    Served database packages (askBatch service packages words p indices pageTokens) := by
  subst numbers
  have inside : ∀ entry ∈ entries, entry.1 < packages.length := fun entry member => by
    obtain ⟨q, there, _⟩ := asked entry member
    exact (List.getElem?_eq_some_iff.mp there).1
  unfold askBatch
  cases posted : postBatch service p.log.length (batchQueries packages (entries.map Prod.fst)
      pageTokens) with
  | error e =>
    simp only [posted]
    refine ⟨served.within, fun exchange member results ok => ?_⟩
    cases List.mem_append.mp member with
    | inl before => exact served.answers exchange before results ok
    | inr last =>
      rw [List.mem_singleton.mp last] at ok
      cases ok
  | ok results =>
    simp only [posted]
    have from_database := postBatch_ok serves posted
    subst from_database
    have clear : Within database packages p.ids [] :=
      ⟨served.within.size, served.within.listed, nofun⟩
    have merged := (within_merge asked (asks_batchQueries inside tokens) clear).1
    refine ⟨?_, fun exchange member results ok => ?_⟩
    · refine ⟨merged.size, merged.listed, fun entry member => ?_⟩
      exact (List.mem_append.mp member).elim (served.within.reached entry) (merged.reached entry)
    · cases List.mem_append.mp member with
      | inl before => exact served.answers exchange before results ok
      | inr last =>
        rw [List.mem_singleton.mp last] at ok ⊢
        cases ok
        rfl

theorem fold_keeps {C : Type} {ask : Progress → C → Progress} (holds : Progress → Prop)
    (asks : C → Prop) (step : ∀ p c, asks c → holds p → holds (ask p c)) {cs : List C}
    (all : ∀ c ∈ cs, asks c) (start : holds p) : holds (cs.foldl ask p) := by
  induction cs generalizing p with
  | nil => exact start
  | cons c cs ih =>
    exact ih (fun c member => all c (List.mem_cons_of_mem _ member))
      (step p c (all c List.mem_cons_self) start)

theorem served_noProgress : Served database packages (noProgress packages) where
  within :=
    { size := List.length_replicate
      listed := fun i q known _ there id member => by
        rw [noProgress, List.getElem?_replicate] at there
        split at there
        · cases there
          cases member
        · cases there
      reached := nofun }
  answers := nofun

theorem asked_first {indices : List Nat} (inside : ∀ i ∈ indices, i < packages.length) :
    Asked database packages (unasked indices) := by
  intro entry member
  obtain ⟨i, listed, same⟩ := List.mem_map.mp member
  subst same
  have bound := inside i listed
  exact ⟨packages[i], List.getElem?_eq_getElem bound, Reached.first⟩

theorem mem_ranges {indices : List Nat}
    (piece : indices ∈ chunkRanges packages.length batchChunkSize) :
    ∀ i ∈ indices, i < packages.length := by
  intro i member
  have all : i ∈ (chunkRanges packages.length batchChunkSize).flatten :=
    List.mem_flatten.mpr ⟨indices, piece, member⟩
  rw [flatten_chunkRanges (by decide)] at all
  exact List.mem_range.mp all

theorem tokens_first {indices : List Nat} (n : Nat) (entry : Nat × Option String)
    (there : (unasked indices)[n]? = some entry) :
    ((none : Option (List String)).bind fun tokens => tokens[n]?) = entry.2 := by
  obtain ⟨i, _, same⟩ := List.mem_map.mp (List.mem_of_getElem? there)
  rw [← same]
  rfl

theorem served_firstPages (serves : Serves database service) :
    Served database packages (firstPages service packages) := by
  unfold firstPages
  refine fold_keeps (Served database packages) (fun indices => ∀ i ∈ indices, i < packages.length)
    ?_ (fun _ piece => mem_ranges piece) served_noProgress
  intro p indices inside served
  exact served_askBatch serves (numbers_unasked indices).symm tokens_first (asked_first inside)
    served

theorem served_pageRound (serves : Serves database service)
    (served : Served database packages p) :
    Served database packages (pageRound service packages p) := by
  unfold pageRound
  refine fold_keeps (Served database packages)
    (fun chunk => ∀ entry ∈ chunk, entry ∈ p.pendingPages) ?_ ?_
    ⟨⟨served.within.size, served.within.listed, nofun⟩, served.answers⟩
  · intro q chunk waited before
    refine served_askBatch serves (numbers_waiting chunk).symm ?_ ?_ before
    · intro n entry there
      simp only [waiting, List.getElem?_map, Option.map_eq_some_iff] at there
      obtain ⟨pending, found, same⟩ := there
      rw [Option.bind_some, List.getElem?_map, found, ← same]
      rfl
    · intro entry member
      obtain ⟨pending, listed, same⟩ := List.mem_map.mp member
      subst same
      exact served.within.reached pending (waited pending listed)
  · intro chunk piece entry member
    have all : entry ∈ (chunks batchChunkSize p.pendingPages).flatten :=
      List.mem_flatten.mpr ⟨chunk, piece, member⟩
    rw [flatten_chunks (by decide)] at all
    exact all

theorem served_followPages (serves : Serves database service) (rounds : Nat)
    (served : Served database packages p) :
    Served database packages (followPages service packages rounds p) := by
  induction rounds generalizing p with
  | zero => exact served
  | succ rounds ih =>
    unfold followPages
    split
    · exact served
    · exact ih (served_pageRound serves served)

theorem served_askAll (serves : Serves database service) :
    Served database packages (askAll service packages) := by
  have served : Served database packages
      (followPages service packages maxExtraPages (firstPages service packages)) :=
    served_followPages serves maxExtraPages (served_firstPages serves)
  unfold askAll
  simp only
  split
  · exact served
  · exact ⟨served.within, served.answers⟩

end Batches

section Results

/- Whatever is reported of a package, its pages list it. -/
theorem result_listed (serves : Serves database service) {r : PackageCveResult Score}
    (reported : r ∈ (queryPackages service packages baseScore).results) :
    ∃ q ∈ packages, ∃ id record, Listed database q id ∧ database.record id = some record ∧
      r = buildResult q (fromRecord baseScore (queried packages) record) := by
  rw [results_eq] at reported
  obtain ⟨⟨q, known⟩, paired, part⟩ := List.mem_flatMap.mp reported
  obtain ⟨id, member, built⟩ := List.mem_filterMap.mp part
  obtain ⟨advisory, found, same⟩ := Option.map_eq_some_iff.mp built
  obtain ⟨record, there, rfl⟩ := foundIn_fetchDetail serves found
  obtain ⟨i, at_pair⟩ := List.mem_iff_getElem?.mp paired
  obtain ⟨at_q, at_known⟩ := List.getElem?_zip_eq_some.mp at_pair
  exact ⟨q, List.mem_of_getElem? at_q, id, record,
    (served_askAll serves).within.listed i q known at_q at_known id member, there, same.symm⟩

theorem pagesIn_served {page : Page BatchQuery String (List String)} {indices : List Nat}
    {queries : List BatchQuery}
    (member : page ∈ pagesIn indices queries (queries.map database.page)) :
    page.values = (database.page page.query).vulns ∧
      page.next = (database.page page.query).next := by
  induction queries generalizing indices with
  | nil =>
    unfold pagesIn at member
    cases indices with
    | nil => cases member
    | cons i indices => cases member
  | cons q queries ih =>
    cases indices with
    | nil => cases member
    | cons i indices =>
      cases List.mem_cons.mp member with
      | inl here =>
        rw [here]
        exact ⟨rfl, rfl⟩
      | inr later => exact ih later

theorem page_served (serves : Serves database service)
    {page : Page BatchQuery String (List String)}
    (member : page ∈ pages (askAll service packages).log) :
    page.values = (database.page page.query).vulns ∧
      page.next = (database.page page.query).next := by
  obtain ⟨e, sent, there⟩ := List.mem_flatMap.mp member
  unfold Exchange.pages at there
  split at there
  · rename_i results answer
    rw [(served_askAll serves).answers e sent results answer] at there
    exact pagesIn_served there
  · cases there

/- Without errors every page of a package is taken in. -/
theorem reached_taken (serves : Serves database service)
    (quiet : (askAll service packages).errors = []) {i : Nat} {q : OsvQuery}
    (there : packages[i]? = some q) {asked : Option String} (reached : Reached database q asked) :
    ∃ page ∈ pagesOf (pages (askAll service packages).log) i, page.query = ⟨q, asked⟩ := by
  have inside := (List.getElem?_eq_some_iff.mp there).1
  have chain := followed_done (sound_askAll quiet).merged.followed inside
  have about : ∀ {token : Option String} {query : BatchQuery}, Asks packages i token query →
      query = ⟨q, token⟩ := by
    intro token query asks
    obtain ⟨same, named⟩ := asks
    rw [there] at same
    cases query
    cases same
    cases named
    rfl
  induction reached with
  | first =>
    obtain waits | ⟨page, member, asks⟩ := chain_first chain
    · cases waits
    · exact ⟨page, member, about asks⟩
  | @next asked token _ names ih =>
    obtain ⟨page, member, query⟩ := ih
    have next : page.next = some token := by
      rw [(page_served serves (List.mem_filter.mp member).1).2, query]
      exact names
    obtain waits | ⟨later, listed, asks⟩ := chain_next chain member next
    · cases waits
    · exact ⟨later, listed, about asks⟩

/- Without errors all that its pages list is reported of a package, unless it is gone. -/
theorem listed_result (serves : Serves database service)
    (quiet : (queryPackages service packages baseScore).errors = []) {q : OsvQuery}
    (member : q ∈ packages) {id : String} (listed : Listed database q id)
    {record : OsvVulnerability} (there : database.record id = some record) :
    buildResult q (fromRecord baseScore (queried packages) record) ∈
      (queryPackages service packages baseScore).results := by
  obtain ⟨quiet_batches, fetched⟩ := quiet_query quiet
  obtain ⟨i, at_q⟩ := List.mem_iff_getElem?.mp member
  have inside := (List.getElem?_eq_some_iff.mp at_q).1
  obtain ⟨asked, reached, on_page⟩ := listed
  obtain ⟨page, taken, query⟩ := reached_taken serves quiet_batches at_q reached
  have known : id ∈ idsOn (pages (askAll service packages).log) i := by
    refine List.mem_flatMap.mpr ⟨page, taken, ?_⟩
    rw [(page_served serves (List.mem_filter.mp taken).1).1, query]
    exact on_page
  have kept := (sound_askAll quiet_batches).merged.kept i inside
  have in_kept := (mem_addIds [] _).mpr (Or.inr known)
  have not_failed := fetched _ (List.mem_of_getElem? kept) id in_kept
  rw [results_eq]
  refine List.mem_flatMap.mpr ⟨(q, _), List.mem_of_getElem?
    (List.getElem?_zip_eq_some.mpr ⟨at_q, kept⟩), List.mem_filterMap.mpr ⟨id, in_kept, ?_⟩⟩
  rw [fetchDetail_record serves there not_failed, Option.map_some]

end Results

section Steady

/- The service that always answers. -/
def steady (database : Database) : Service where
  batch _ queries _ := .response ⟨200, "OK"⟩ "" (.ok (queries.map database.page))
  detail id _ :=
    match database.record id with
    | some record => .response ⟨200, "OK"⟩ "" (.ok record)
    | none => .response ⟨404, "Not Found"⟩ "" (.error "")
  arrival ids := ids
  arrives ids := List.Perm.refl ids

theorem serves_steady (database : Database) : Serves database (steady database) where
  batch _ _ _ _ _ _ answered _ := by
    cases answered
    rfl
  found id _ _ _ record answered _ := by
    simp only [steady] at answered
    split at answered
    · rename_i there
      cases answered
      exact there
    · cases answered
  gone id _ _ _ _ answered missing := by
    simp only [steady] at answered
    split at answered
    · cases answered
      cases missing
    · assumption

theorem posted_steady (number : Nat) (queries : List BatchQuery) :
    postBatch (steady database) number queries = .ok (queries.map database.page) := rfl

theorem fetched_steady (id : String) :
    isFailed (fetchDetail (steady database) packages baseScore id) = false := by
  cases there : database.record id with
  | none => simp [fetchDetail, detailAttempts, osvAttempts, steady, there, Status.isSuccess, isFailed]
  | some record =>
    simp [fetchDetail, detailAttempts, osvAttempts, steady, there, Status.isSuccess, isFailed]

theorem quiet_firstPages (database : Database) (packages : List OsvQuery) :
    (firstPages (steady database) packages).errors = [] := by
  unfold firstPages
  refine (fold_keeps (fun p => Served database packages p ∧ p.errors = [])
    (fun indices => ∀ i ∈ indices, i < packages.length) ?_ (fun _ piece => mem_ranges piece)
    ⟨served_noProgress, rfl⟩).2
  intro p indices inside ⟨served, quiet⟩
  refine ⟨served_askBatch (serves_steady database) (numbers_unasked indices).symm tokens_first
    (asked_first inside) served, ?_⟩
  have asked : Asked database packages (unasked indices) := asked_first inside
  have clear : Within database packages p.ids [] :=
    ⟨served.within.size, served.within.listed, nofun⟩
  have in_range : ∀ entry ∈ unasked indices, entry.1 < packages.length := fun entry member => by
    obtain ⟨q, there, _⟩ := asked entry member
    exact (List.getElem?_eq_some_iff.mp there).1
  have matched := (within_merge asked (asks_batchQueries in_range tokens_first) clear).2
  rw [numbers_unasked] at matched
  simp only [askBatch, posted_steady, matched, Bool.false_eq_true, if_false]
  exact quiet

/- Where no page names another, nothing goes wrong with it. -/
theorem quiet_steady (single : ∀ q, (database.page q).next = none) :
    (queryPackages (steady database) packages baseScore).errors = [] := by
  have served : Served database packages (firstPages (steady database) packages) :=
    served_firstPages (serves_steady database)
  have finished : (firstPages (steady database) packages).pendingPages = [] := by
    rw [List.eq_nil_iff_forall_not_mem]
    intro entry member
    obtain ⟨q, _, reached⟩ := served.within.reached entry member
    cases reached with
    | next _ names =>
      rw [single] at names
      cases names
  have followed : followPages (steady database) packages maxExtraPages
      (firstPages (steady database) packages) = firstPages (steady database) packages := by
    unfold followPages
    split
    · rename_i none_left
      cases none_left
    · rw [if_pos finished]
  have asked : (askAll (steady database) packages).errors = [] := by
    simp only [askAll, followed, finished, if_true]
    exact quiet_firstPages database packages
  have fetched : ∀ ids, (fetchVulnerabilityDetails (steady database) packages baseScore ids).2 =
      [] := by
    intro ids
    have none : ((steady database).arrival ids).filter (fun id =>
        isFailed (fetchDetail (steady database) packages baseScore id)) = [] :=
      List.filter_eq_nil_iff.mpr fun id _ => by rw [fetched_steady]; exact Bool.false_ne_true
    simp only [fetchVulnerabilityDetails, none, List.insertionSort_nil]
  unfold queryPackages
  split
  · rfl
  · simp only
    split
    · exact asked
    · simp only [fetched]
      exact asked

end Steady

end SentinelAgent.Osv
