import SentinelAgent.Scanner.OsvClient

/- The batches of a query without errors: every package is answered to its last page, and the
   ids kept for it are those on its pages. -/
namespace SentinelAgent.Osv
open Paged

/- What is sent for a package that waits for a page. -/
def Asks (packages : List OsvQuery) (i : Nat) (asked : Option String) (q : BatchQuery) : Prop :=
  packages[i]? = some q.package ∧ q.pageToken = asked

def pagesIn (indices : List Nat) (queries : List BatchQuery) (results : List BatchResult) :
    List (Page BatchQuery String (List String)) :=
  match indices, queries, results with
  | i :: indices, q :: queries, r :: results =>
    ⟨i, q, r.vulns, r.next⟩ :: pagesIn indices queries results
  | _, _, _ => []

/- The pages of an answer that has one result for each query. -/
def Exchange.pages (e : Exchange) : List (Page BatchQuery String (List String)) :=
  match e.answer with
  | .ok results => pagesIn e.indices e.queries results
  | .error _ => []

def Exchange.Whole (e : Exchange) : Prop :=
  ∃ results, e.answer = .ok results ∧ results.length = e.indices.length

def pages (log : List Exchange) : List (Page BatchQuery String (List String)) := log.flatMap Exchange.pages

def idsOn (log : List (Page BatchQuery String (List String))) (i : Nat) : List String :=
  (pagesOf log i).flatMap (·.values)

def waiting (pending : List (Nat × String)) : List (Nat × Option String) :=
  pending.map fun entry => (entry.1, some entry.2)

section Ids

theorem mem_addIds {id : String} (target ids : List String) :
    id ∈ ids.foldl addId target ↔ id ∈ target ∨ id ∈ ids := by
  induction ids generalizing target with
  | nil => simp
  | cons next ids ih =>
    have one : id ∈ addId target next ↔ id ∈ target ∨ id = next := by
      unfold addId
      split
      · rename_i there
        constructor
        · exact Or.inl
        · rintro (before | same)
          · exact before
          · rw [same]
            exact there
      · simp
    rw [List.foldl_cons, ih, one, List.mem_cons, or_assoc]

theorem nodup_addIds {target : List String} (distinct : target.Nodup) (ids : List String) :
    (ids.foldl addId target).Nodup := by
  induction ids generalizing target with
  | nil => exact distinct
  | cons next ids ih =>
    apply ih
    unfold addId
    split
    · exact distinct
    · rename_i absent
      exact List.nodup_append.mpr ⟨distinct, List.nodup_singleton _, by
        intro id there other same
        rw [List.mem_singleton.mp same]
        intro clash
        exact absent (clash ▸ there)⟩

end Ids

theorem flatten_ranges (total size pieces : Nat) :
    ((List.range' 0 pieces size).map fun start =>
      List.range' start (min (start + size) total - start)).flatten =
        List.range' 0 (min (size * pieces) total) := by
  induction pieces with
  | zero => simp
  | succ pieces ih =>
    rw [List.range'_concat, List.map_append, List.flatten_append, ih, List.map_singleton,
      List.flatten_singleton, Nat.zero_add, Nat.mul_succ]
    by_cases inside : size * pieces ≤ total
    · have start : min (size * pieces) total = size * pieces := Nat.min_eq_left inside
      have joined := List.range'_append_1 (s := 0) (m := size * pieces)
        (n := min (size * pieces + size) total - size * pieces)
      rw [Nat.zero_add] at joined
      rw [start, joined]
      congr 1
      omega
    · have none_left : min (size * pieces + size) total - size * pieces = 0 := by omega
      have same : min (size * pieces + size) total = min (size * pieces) total := by omega
      rw [none_left, same, List.range'_zero, List.append_nil]

theorem flatten_chunkRanges {total size : Nat} (positive : 0 < size) :
    (chunkRanges total size).flatten = List.range total := by
  have at_least_one : max size 1 = size := by omega
  have covered : total ≤ size * ((total + size - 1) / size) := by
    have division := Nat.div_add_mod (total + size - 1) size
    have remainder := Nat.mod_lt (total + size - 1) positive
    omega
  simp only [chunkRanges, at_least_one]
  rw [flatten_ranges, Nat.min_eq_right covered, List.range_eq_range']

theorem asks_from {packages : List OsvQuery} {entries : List (Nat × Option String)}
    (inside : ∀ entry ∈ entries, entry.1 < packages.length) {pageTokens : Option (List String)}
    (k : Nat) (tokens : ∀ (n : Nat) (entry : Nat × Option String), entries[n]? = some entry →
      (pageTokens.bind fun tokens => tokens[k + n]?) = entry.2) :
    List.Forall₂ (fun entry q => Asks packages entry.1 entry.2 q) entries
      (((entries.map Prod.fst).zipIdx k).filterMap fun entry => packages[entry.1]?.map
        fun package => ⟨package, pageTokens.bind fun tokens => tokens[entry.2]?⟩) := by
  induction entries generalizing k with
  | nil => exact List.Forall₂.nil
  | cons entry entries ih =>
    have bound := inside entry List.mem_cons_self
    have token := tokens 0 entry rfl
    have found : packages[entry.1]? = some packages[entry.1] := List.getElem?_eq_getElem bound
    rw [List.map_cons, List.zipIdx_cons, List.filterMap_cons]
    simp only [found, Option.map_some]
    refine List.Forall₂.cons ⟨found, token⟩ (ih (fun e member => inside e
      (List.mem_cons_of_mem entry member)) (k + 1) ?_)
    intro n e there
    have place : k + 1 + n = k + (n + 1) := by omega
    rw [place]
    exact tokens (n + 1) e there

/- The queries of a batch are those of its entries, in order. -/
theorem asks_batchQueries {packages : List OsvQuery} {entries : List (Nat × Option String)}
    (inside : ∀ entry ∈ entries, entry.1 < packages.length) {pageTokens : Option (List String)}
    (tokens : ∀ (n : Nat) (entry : Nat × Option String), entries[n]? = some entry →
      (pageTokens.bind fun tokens => tokens[n]?) = entry.2) :
    List.Forall₂ (fun entry q => Asks packages entry.1 entry.2 q) entries
      (batchQueries packages (entries.map Prod.fst) pageTokens) := by
  apply asks_from inside 0
  intro n entry there
  rw [Nat.zero_add]
  exact tokens n entry there

/- The ids kept are those on the pages, and the queue says who waits for which page. -/
structure Merged (packages : List OsvQuery) (ids : List (List String))
    (log : List (Page BatchQuery String (List String))) (queue : List (Nat × Option String)) :
    Prop where
  followed : Followed (Asks packages) packages.length log queue
  size : ids.length = packages.length
  kept : ∀ i < packages.length, ids[i]? = some ((idsOn log i).foldl addId [])

section Merge
variable {packages : List OsvQuery} {ids : List (List String)}
  {log : List (Page BatchQuery String (List String))} {queue : List (Nat × Option String)}

theorem idsOn_append_singleton (page : Page BatchQuery String (List String)) (i : Nat) :
    idsOn (log ++ [page]) i =
      if page.index = i then idsOn log i ++ page.values else idsOn log i := by
  unfold idsOn
  rw [pagesOf_append_singleton]
  split
  · simp
  · rfl

theorem mergeOne_some {target : List String} {outcome : MergeOutcome} {r : BatchResult} {i : Nat}
    (there : ids[i]? = some target) :
    mergeOne (ids, outcome) (r, i) = (ids.set i (r.vulns.foldl addId target),
      { outcome with nextPages :=
        outcome.nextPages ++ (r.next.map fun token => (i, token)).toList }) := by
  simp only [mergeOne, there]

/- One result is merged into the ids of the package that waits first. -/
theorem merged_one {i : Nat} {asked : Option String} {q : BatchQuery} {r : BatchResult}
    (merged : Merged packages ids log ((i, asked) :: queue)) (query : Asks packages i asked q) :
    ids[i]? = some ((idsOn log i).foldl addId []) ∧
      Merged packages (ids.set i (r.vulns.foldl addId ((idsOn log i).foldl addId [])))
        (log ++ [⟨i, q, r.vulns, r.next⟩])
        (queue ++ waiting (r.next.map fun token => (i, token)).toList) := by
  have bound := merged.followed.inRange (i, asked) List.mem_cons_self
  refine ⟨merged.kept i bound, ?_, ?_, ?_⟩
  · have put_back : again (⟨i, q, r.vulns, r.next⟩ : Page BatchQuery String (List String)) =
        waiting (r.next.map fun token => (i, token)).toList := by
      unfold again
      cases r.next with
      | none => rfl
      | some token => rfl
    rw [← put_back]
    exact followed_answer merged.followed query
  · rw [List.length_set]
    exact merged.size
  · intro j inside
    rw [idsOn_append_singleton]
    by_cases here : i = j
    · rw [← here, if_pos rfl, List.foldl_append, List.getElem?_set_self]
      rw [merged.size]
      exact bound
    · rw [List.getElem?_set_ne here, if_neg here]
      exact merged.kept j inside

theorem waiting_append (pending more : List (Nat × String)) :
    waiting (pending ++ more) = waiting pending ++ waiting more :=
  List.map_append

theorem merged_results {entries : List (Nat × Option String)} {queries : List BatchQuery}
    (queried : List.Forall₂ (fun entry q => Asks packages entry.1 entry.2 q) entries queries)
    {results : List BatchResult} (whole : results.length = entries.length)
    {rest : List (Nat × Option String)} {outcome : MergeOutcome}
    (merged : Merged packages ids log (entries ++ (rest ++ waiting outcome.nextPages))) :
    Merged packages ((results.zip (entries.map Prod.fst)).foldl mergeOne (ids, outcome)).1
        (log ++ pagesIn (entries.map Prod.fst) queries results)
        (rest ++ waiting
          ((results.zip (entries.map Prod.fst)).foldl mergeOne (ids, outcome)).2.nextPages) ∧
      ((results.zip (entries.map Prod.fst)).foldl mergeOne (ids, outcome)).2.lengthMismatch =
        outcome.lengthMismatch := by
  induction queried generalizing ids log results outcome with
  | nil =>
    rw [List.length_eq_zero_iff.mp whole]
    simp only [List.zip_nil_left, List.foldl_nil, List.map_nil, pagesIn, List.append_nil,
      and_true]
    exact merged
  | @cons entry q entries queries query _ ih =>
    cases results with
    | nil => cases whole
    | cons r results =>
      obtain ⟨there, next⟩ := merged_one merged query
      rw [List.map_cons, List.zip_cons_cons, List.foldl_cons, mergeOne_some there, pagesIn,
        List.append_cons]
      apply ih (Nat.succ.inj whole)
      rw [waiting_append, ← List.append_assoc rest, ← List.append_assoc entries]
      exact next

theorem mismatch_stays {outcome : MergeOutcome} (mismatch : outcome.lengthMismatch = true)
    (results : List (BatchResult × Nat)) :
    (results.foldl mergeOne (ids, outcome)).2.lengthMismatch = true := by
  induction results generalizing ids outcome with
  | nil => exact mismatch
  | cons r results ih =>
    rw [List.foldl_cons]
    cases there : ids[r.2]? with
    | none =>
      have step : mergeOne (ids, outcome) r = (ids, { outcome with lengthMismatch := true }) := by
        simp only [mergeOne, there]
      rw [step]
      exact ih rfl
    | some target =>
      rw [mergeOne_some there]
      exact ih mismatch

/- A response that is not found short or long has one result for each query. -/
theorem whole_of_quiet {indices : List Nat} {results : List BatchResult}
    (quiet : (mergeBatchResults ids indices results).2.lengthMismatch = false) :
    results.length = indices.length := by
  by_contra differs
  have found := @mismatch_stays ids ⟨[], decide (results.length ≠ indices.length)⟩
    (decide_eq_true differs) (results.zip indices)
  unfold mergeBatchResults at quiet
  rw [found] at quiet
  cases quiet

end Merge

structure Sound (packages : List OsvQuery) (p : Progress) (queue : List (Nat × Option String)) :
    Prop where
  merged : Merged packages p.ids (pages p.log) queue
  whole : ∀ e ∈ p.log, e.Whole

section Batches
variable {service : Service} {packages : List OsvQuery} {words : Wording} {p : Progress}
  {entries rest : List (Nat × Option String)}

theorem pages_append_singleton (log : List Exchange) (e : Exchange) :
    pages (log ++ [e]) = pages log ++ e.pages := by
  simp [pages]

/- A batch about the first of the queue, after which there is still no error. -/
theorem sound_askBatch {indices : List Nat} {pageTokens : Option (List String)}
    (numbers : indices = entries.map Prod.fst)
    (tokens : ∀ (n : Nat) (entry : Nat × Option String), entries[n]? = some entry →
      (pageTokens.bind fun tokens => tokens[n]?) = entry.2)
    (quiet : (askBatch service packages words p indices pageTokens).errors = []) :
    p.errors = [] ∧ (Sound packages p (entries ++ (rest ++ waiting p.pendingPages)) →
      Sound packages (askBatch service packages words p indices pageTokens)
        (rest ++ waiting (askBatch service packages words p indices pageTokens).pendingPages)) := by
  subst numbers
  unfold askBatch at quiet ⊢
  cases answer : postBatch service p.log.length (batchQueries packages (entries.map Prod.fst)
      pageTokens) with
  | error e =>
    simp only [answer, List.append_eq_nil_iff, List.cons_ne_nil, and_false] at quiet
  | ok results =>
    simp only [answer] at quiet ⊢
    cases mismatch : (mergeBatchResults p.ids (entries.map Prod.fst)
        results).2.lengthMismatch with
    | true => simp [mismatch] at quiet
    | false =>
      simp only [mismatch, Bool.false_eq_true, if_false] at quiet ⊢
      refine ⟨quiet, fun sound => ⟨?_, ?_⟩⟩
      · have inside : ∀ entry ∈ entries, entry.1 < packages.length := fun entry member =>
          sound.merged.followed.inRange entry (List.mem_append_left _ member)
        have whole : results.length = entries.length := by
          rw [whole_of_quiet mismatch, List.length_map]
        have start : Merged packages p.ids (pages p.log)
            (entries ++ (rest ++ waiting p.pendingPages ++ waiting [])) := by
          simpa only [waiting, List.map_nil, List.append_nil] using sound.merged
        have merged : Merged packages (mergeBatchResults p.ids (entries.map Prod.fst) results).1
            (pages p.log ++ pagesIn (entries.map Prod.fst)
              (batchQueries packages (entries.map Prod.fst) pageTokens) results)
            (rest ++ waiting p.pendingPages ++ waiting
              (mergeBatchResults p.ids (entries.map Prod.fst) results).2.nextPages) :=
          (merged_results (asks_batchQueries inside tokens) whole start).1
        rw [pages_append_singleton, waiting_append, ← List.append_assoc]
        exact merged
      · intro e member
        cases List.mem_append.mp member with
        | inl before => exact sound.whole e before
        | inr last =>
          rw [List.mem_singleton.mp last]
          exact ⟨results, rfl, whole_of_quiet mismatch⟩

/- The batches of one loop, one after another. -/
theorem sound_fold {C : Type} {ask : Progress → C → Progress}
    (entriesOf : C → List (Nat × Option String))
    (step : ∀ (p : Progress) (c : C) (rest : List (Nat × Option String)), (ask p c).errors = [] →
      p.errors = [] ∧ (Sound packages p (entriesOf c ++ (rest ++ waiting p.pendingPages)) →
        Sound packages (ask p c) (rest ++ waiting (ask p c).pendingPages)))
    (cs : List C) (p : Progress) (quiet : (cs.foldl ask p).errors = []) :
    p.errors = [] ∧ (Sound packages p (cs.flatMap entriesOf ++ waiting p.pendingPages) →
      Sound packages (cs.foldl ask p) (waiting (cs.foldl ask p).pendingPages)) := by
  induction cs generalizing p with
  | nil => exact ⟨quiet, id⟩
  | cons c cs ih =>
    obtain ⟨quiet_after, rest_sound⟩ := ih (ask p c) quiet
    obtain ⟨quiet_before, one_sound⟩ := step p c (cs.flatMap entriesOf) quiet_after
    refine ⟨quiet_before, fun sound => rest_sound (one_sound ?_)⟩
    rw [← List.append_assoc, ← List.flatMap_cons]
    exact sound

theorem sound_noProgress :
    Sound packages (noProgress packages) (unasked (List.range packages.length)) where
  merged :=
    { followed := followed_start
      size := List.length_replicate
      kept := fun i bound => by
        rw [noProgress, List.getElem?_replicate, if_pos bound]
        rfl }
  whole := nofun

theorem sound_firstPages (quiet : (firstPages service packages).errors = []) :
    Sound packages (firstPages service packages)
      (waiting (firstPages service packages).pendingPages) := by
  refine (sound_fold unasked ?_ _ _ quiet).2 ?_
  · intro p indices rest quiet
    refine sound_askBatch (numbers_unasked indices).symm ?_ quiet
    intro n entry there
    obtain ⟨i, _, same⟩ := List.mem_map.mp (List.mem_of_getElem? there)
    rw [← same]
    rfl
  · have positive : 0 < batchChunkSize := by decide
    have all : (chunkRanges packages.length batchChunkSize).flatMap unasked =
        (unasked (List.range packages.length) : List (Nat × Option String)) := by
      rw [← flatten_chunkRanges positive]
      exact List.map_flatten.symm
    rw [all]
    exact (List.append_nil _).symm ▸ sound_noProgress

theorem numbers_waiting (pending : List (Nat × String)) :
    (waiting pending).map Prod.fst = pending.map Prod.fst := by
  simp [waiting]

theorem sound_page (p : Progress) (chunk : List (Nat × String))
    (rest : List (Nat × Option String))
    (quiet : (askBatch service packages words p (chunk.map Prod.fst)
      (some (chunk.map Prod.snd))).errors = []) :
    p.errors = [] ∧ (Sound packages p (waiting chunk ++ (rest ++ waiting p.pendingPages)) →
      Sound packages (askBatch service packages words p (chunk.map Prod.fst)
          (some (chunk.map Prod.snd)))
        (rest ++ waiting (askBatch service packages words p (chunk.map Prod.fst)
          (some (chunk.map Prod.snd))).pendingPages)) := by
  refine sound_askBatch (numbers_waiting chunk).symm ?_ quiet
  intro n entry there
  simp only [waiting, List.getElem?_map, Option.map_eq_some_iff] at there
  obtain ⟨pending, found, same⟩ := there
  rw [Option.bind_some, List.getElem?_map, found, ← same]
  rfl

theorem sound_pageRound (quiet : (pageRound service packages p).errors = []) :
    p.errors = [] ∧ (Sound packages p (waiting p.pendingPages) →
      Sound packages (pageRound service packages p)
        (waiting (pageRound service packages p).pendingPages)) := by
  obtain ⟨quiet_before, sound⟩ := sound_fold waiting
    sound_page _ _ quiet
  refine ⟨quiet_before, fun before => sound ?_⟩
  have positive : 0 < batchChunkSize := by decide
  have all : (chunks batchChunkSize p.pendingPages).flatMap waiting = waiting p.pendingPages := by
    rw [← congrArg waiting (flatten_chunks positive p.pendingPages)]
    exact List.map_flatten.symm
  rw [all]
  exact (List.append_nil _).symm ▸ ⟨before.merged, before.whole⟩

theorem sound_followPages {rounds : Nat}
    (quiet : (followPages service packages rounds p).errors = []) :
    p.errors = [] ∧ (Sound packages p (waiting p.pendingPages) →
      Sound packages (followPages service packages rounds p)
        (waiting (followPages service packages rounds p).pendingPages)) := by
  induction rounds generalizing p with
  | zero => exact ⟨quiet, id⟩
  | succ rounds ih =>
    unfold followPages at quiet ⊢
    split at quiet
    · rename_i finished
      rw [if_pos finished]
      exact ⟨quiet, id⟩
    · rename_i unfinished
      obtain ⟨quiet_after, rest⟩ := ih quiet
      obtain ⟨quiet_before, round⟩ := sound_pageRound quiet_after
      rw [if_neg unfinished]
      exact ⟨quiet_before, fun sound => rest (round sound)⟩

/- Without errors nobody waits for a page any more. -/
theorem sound_askAll (quiet : (askAll service packages).errors = []) :
    Sound packages (askAll service packages) [] := by
  unfold askAll at quiet ⊢
  simp only at quiet ⊢
  split at quiet
  · rename_i finished
    obtain ⟨quiet_before, followed⟩ := sound_followPages quiet
    have sound := followed (sound_firstPages quiet_before)
    rw [finished] at sound
    rw [if_pos finished]
    exact sound
  · simp at quiet

end Batches
end SentinelAgent.Osv
