import SentinelAgent.Scanner.VulnerabilityScan

/-!
What is reported of the findings of a scan: each of them once, in pages that are sent one after the
other, each again while its refusal may be transient and retries are left.
-/
namespace SentinelAgent.Vulnerability

section Once
variable {Score : Type} {findings : List (VulnerabilityFinding Score)}

/- The first of those of the highest rank. -/
def FirstBest (findings : List (VulnerabilityFinding Score)) (f : VulnerabilityFinding Score) :
    Prop :=
  ∃ before after, findings = before ++ f :: after ∧ (∀ other ∈ before, other.rank < f.rank) ∧
    ∀ other ∈ after, other.rank ≤ f.rank

def compareRank : VulnerabilityFinding Score → VulnerabilityFinding Score → Ordering :=
  compareOn VulnerabilityFinding.rank

instance : Std.TransCmp (@compareRank Score) :=
  inferInstanceAs (Std.TransCmp (compareOn VulnerabilityFinding.rank))

theorem dedupFindings_eq (findings : List (VulnerabilityFinding Score)) : dedupFindings findings =
    Keyed.keepBest VulnerabilityFinding.key (fun f kept => compareRank f kept == .gt) findings := by
  have same : (fun f kept : VulnerabilityFinding Score => decide (kept.rank < f.rank)) =
      fun f kept => compareRank f kept == .gt := by
    funext f kept
    rw [Bool.eq_iff_iff, decide_eq_true_eq, beq_iff_eq, compareRank, compareOn,
      Nat.compare_eq_gt]
  rw [dedupFindings, same]

theorem firstBest_iff {f : VulnerabilityFinding Score} :
    Greatest.greatest compareRank findings = some f ↔ FirstBest findings f := by
  rw [Greatest.greatest_eq_some, FirstBest]
  simp only [compareRank, compareOn, Nat.compare_eq_lt, Nat.isLE_compare]

/- Whatever comes with a key, one finding is kept: the first of the best. -/
theorem kept_once {k : String × String} (some_finding : k ∈ findings.filterMap (·.key)) :
    ∃ f, (dedupFindings findings).filter (·.key = some k) = [f] ∧
      FirstBest (findings.filter (·.key = some k)) f := by
  obtain ⟨finding, member, keyed⟩ := List.mem_filterMap.mp some_finding
  have nonempty : findings.filter (·.key = some k) ≠ [] :=
    List.ne_nil_of_mem (List.mem_filter.mpr ⟨member, by simpa using keyed⟩)
  obtain ⟨f, found, _⟩ : ∃ f, Greatest.greatest compareRank _ = some f ∧ _ ∧ _ :=
    Greatest.exists_greatest nonempty
  refine ⟨f, ?_, firstBest_iff.mp found⟩
  rw [dedupFindings_eq, Keyed.kept_of_key, found]
  rfl

theorem alike_kept {others : List (VulnerabilityFinding Score)}
    (alike : ∀ k, findings.filter (·.key = k) = others.filter (·.key = k)) :
    (dedupFindings findings).Perm (dedupFindings others) := by
  refine @Keyed.perm_of_parts _ _ _ VulnerabilityFinding.key _ _ fun k => ?_
  simp only [dedupFindings_eq]
  cases k with
  | none => rw [Keyed.kept_without_key, Keyed.kept_without_key, alike]
  | some k => rw [Keyed.kept_of_key, Keyed.kept_of_key, alike]

/-- Of the findings with one key the first of the best is kept, in the place of the key's first
    one. What is kept depends on the findings of each key only, and a second time nothing changes. -/
theorem dedup_keeps (findings : List (VulnerabilityFinding Score)) :
    (dedupFindings findings).map (·.key) = Keyed.firstKeys (findings.map (·.key)) ∧
    (dedupFindings findings).filter (·.key = none) = findings.filter (·.key = none) ∧
    (∀ k ∈ findings.filterMap (·.key), ∃ f,
      (dedupFindings findings).filter (·.key = some k) = [f] ∧
        FirstBest (findings.filter (·.key = some k)) f) ∧
    (∀ others, (∀ k, findings.filter (·.key = k) = others.filter (·.key = k)) →
      (dedupFindings findings).Perm (dedupFindings others)) ∧
    dedupFindings (dedupFindings findings) = dedupFindings findings := by
  refine ⟨?_, ?_, fun _ => kept_once, fun _ => alike_kept, ?_⟩
  · exact Keyed.keys_keepBest _ _ findings
  · exact Keyed.kept_without_key _ findings
  · exact Keyed.keepBest_of_nodup _ (Keyed.keepBest_nodup _ _ findings)

end Once

inductive PageError where
  | retryable (message : String)
  | fatal (message : String)

def PageError.message : PageError → String
  | .retryable message => message
  | .fatal message => message

structure Attempt (T : Type) where
  page : Nat
  body : T
  answer : Except PageError Unit

def Attempt.accepted {T : Type} (attempt : Attempt T) : Bool := attempt.answer.isOk

section Send
variable {T : Type}

/- What the platform answers to each attempt, counted over all pages. -/
variable (answers : Nat → Except PageError Unit)

/- One page with so many retries left, after so many attempts in all. -/
def sendPage (index : Nat) (page : T) : Nat → Nat → List (Attempt T) × Except String Unit
  | 0, made =>
    match answers made with
    | .ok _ => ([⟨index, page, .ok ()⟩], .ok ())
    | .error e => ([⟨index, page, .error e⟩], .error e.message)
  | retries + 1, made =>
    match answers made with
    | .ok _ => ([⟨index, page, .ok ()⟩], .ok ())
    | .error (.retryable message) =>
      let later := sendPage index page retries (made + 1)
      (⟨index, page, .error (.retryable message)⟩ :: later.1, later.2)
    | .error (.fatal message) => ([⟨index, page, .error (.fatal message)⟩], .error message)

def sendFrom (total retries : Nat) :
    Nat → List T → Nat → List (Attempt T) × Except (Nat × String) Nat
  | _, [], _ => ([], .ok total)
  | index, page :: pages, made =>
    let first := sendPage answers index page retries made
    match first.2 with
    | .ok _ =>
      let rest := sendFrom total retries (index + 1) pages (made + first.1.length)
      (first.1 ++ rest.1, rest.2)
    | .error message => (first.1, .error (index, s!"page {index + 1}/{total} failed: {message}"))

/- The attempts, and the number of pages sent or the page that failed. There is a retry for each
   delay of `backoff`. -/
def sendPages (pages : List T) (backoff : List Nat) :
    List (Attempt T) × Except (Nat × String) Nat :=
  sendFrom answers pages.length backoff.length 0 pages 0

end Send

section Order
variable {T : Type} {answers : Nat → Except PageError Unit}

def Accepted (attempts : List (Attempt T)) (page : Nat) : Prop :=
  ∃ attempt ∈ attempts, attempt.page = page ∧ attempt.accepted = true

/- The attempts at a page are those of the platform's answers, in their order. -/
structure Attempted (answers : Nat → Except PageError Unit) (index : Nat) (page : T) (made : Nat)
    (attempts : List (Attempt T)) : Prop where
  named : ∀ attempt ∈ attempts, attempt.page = index ∧ attempt.body = page
  answered : ∀ i attempt, attempts[i]? = some attempt → attempt.answer = answers (made + i)

theorem attempted_cons {index made : Nat} {page : T} {answer : Except PageError Unit}
    {attempts : List (Attempt T)} (here : answers made = answer)
    (later : Attempted answers index page (made + 1) attempts) :
    Attempted answers index page made (⟨index, page, answer⟩ :: attempts) where
  named := by simpa using later.named
  answered i attempt found := by
    cases i with
    | zero =>
      cases Option.some.inj found
      exact here.symm
    | succ i =>
      rw [later.answered i attempt found]
      congr 1
      omega

theorem attempted_one {index made : Nat} {page : T} {answer : Except PageError Unit}
    (here : answers made = answer) :
    Attempted answers index page made [⟨index, page, answer⟩] :=
  attempted_cons here ⟨by simp, by simp⟩

/- Refusals of one page, and what the last attempt came to. -/
theorem sendPage_spec (answers : Nat → Except PageError Unit) (index : Nat) (page : T)
    (retries made : Nat) : ∃ refused last,
      (sendPage answers index page retries made).1 = refused ++ [last] ∧
      refused.length ≤ retries ∧ (∀ attempt ∈ refused, attempt.accepted = false) ∧
      Attempted answers index page made (refused ++ [last]) ∧
      last.accepted = (sendPage answers index page retries made).2.isOk := by
  induction retries generalizing made with
  | zero =>
    unfold sendPage
    cases answered : answers made with
    | ok _ => exact ⟨[], _, rfl, le_rfl, by simp, attempted_one answered, rfl⟩
    | error e => exact ⟨[], _, rfl, le_rfl, by simp, attempted_one answered, rfl⟩
  | succ retries ih =>
    unfold sendPage
    cases answered : answers made with
    | ok _ => exact ⟨[], _, rfl, Nat.zero_le _, by simp, attempted_one answered, rfl⟩
    | error e =>
      cases e with
      | fatal message =>
        exact ⟨[], _, rfl, Nat.zero_le _, by simp, attempted_one answered, rfl⟩
      | retryable message =>
        obtain ⟨refused, last, parts, few, refusals, attempted, outcome⟩ := ih (made + 1)
        refine ⟨⟨index, page, .error (.retryable message)⟩ :: refused, last, ?_, ?_, ?_,
          attempted_cons answered attempted, outcome⟩
        · simp only [parts, List.cons_append]
        · simpa using few
        · simpa [Attempt.accepted, Except.isOk, Except.toBool] using refusals

/- What holds of the attempts at some pages from an index on, after so many attempts, and of what
   comes of them. -/
structure InOrder (answers : Nat → Except PageError Unit) (retries index : Nat) (pages : List T)
    (made total : Nat) (attempts : List (Attempt T)) (result : Except (Nat × String) Nat) :
    Prop where
  bodies : ∀ attempt ∈ attempts, index ≤ attempt.page ∧
    pages[attempt.page - index]? = some attempt.body
  answered : ∀ i attempt, attempts[i]? = some attempt → attempt.answer = answers (made + i)
  sorted : attempts.Pairwise fun a b => a.page ≤ b.page ∧ (a.accepted = true → a.page < b.page)
  accepted_before : ∀ before attempt after, attempts = before ++ attempt :: after →
    ∀ page, index ≤ page → page < attempt.page → Accepted before page
  retried : ∀ page, attempts.countP (·.page = page) ≤ retries + 1
  all : ∀ n, result = .ok n → n = total ∧
    ∀ page, index ≤ page → page < index + pages.length → Accepted attempts page
  failed : ∀ page text, result = .error (page, text) → index ≤ page ∧ page < index + pages.length ∧
    ∀ other, index ≤ other → (Accepted attempts other ↔ other < page)

theorem accepted_append {before after : List (Attempt T)} {page : Nat} :
    Accepted (before ++ after) page ↔ Accepted before page ∨ Accepted after page := by
  simp only [Accepted, List.mem_append, or_and_right, exists_or]

/- The attempts at one page: all of them refused, but perhaps the last. -/
theorem one_page {index made retries : Nat} {page : T} {refused : List (Attempt T)}
    {last : Attempt T} (few : refused.length ≤ retries)
    (refusals : ∀ attempt ∈ refused, attempt.accepted = false)
    (attempted : Attempted answers index page made (refused ++ [last])) :
    ((refused ++ [last]).Pairwise fun a b =>
        a.page ≤ b.page ∧ (a.accepted = true → a.page < b.page)) ∧
      (∀ other, (refused ++ [last]).countP (·.page = other) ≤ retries + 1) ∧
      ∀ other, Accepted (refused ++ [last]) other ↔ last.accepted = true ∧ other = index := by
  have of_index : ∀ attempt ∈ refused ++ [last], attempt.page = index :=
    fun attempt member => (attempted.named attempt member).1
  refine ⟨?_, fun other => ?_, fun other => ?_⟩
  · refine List.pairwise_append.mpr ⟨?_, List.pairwise_singleton _ _, ?_⟩
    · refine List.pairwise_of_forall_mem_list fun a earlier b later => ⟨?_, fun accepted => ?_⟩
      · rw [of_index a (List.mem_append_left _ earlier), of_index b (List.mem_append_left _ later)]
      · rw [refusals a earlier] at accepted
        cases accepted
    · intro a earlier b later
      refine ⟨?_, fun accepted => ?_⟩
      · rw [of_index a (List.mem_append_left _ earlier), of_index b (List.mem_append_right _ later)]
      · rw [refusals a earlier] at accepted
        cases accepted
  · refine List.countP_le_length.trans ?_
    rw [List.length_append, List.length_singleton]
    omega
  · constructor
    · rintro ⟨attempt, member, named, accepted⟩
      rcases List.mem_append.mp member with earlier | here
      · rw [refusals attempt earlier] at accepted
        cases accepted
      · rw [List.mem_singleton.mp here] at accepted
        exact ⟨accepted, by rw [← named, of_index attempt member]⟩
    · rintro ⟨accepted, rfl⟩
      exact ⟨last, by simp, of_index last (by simp), accepted⟩

theorem sendFrom_inOrder (answers : Nat → Except PageError Unit) (total retries index : Nat)
    (pages : List T) (made : Nat) : InOrder answers retries index pages made total
      (sendFrom answers total retries index pages made).1
      (sendFrom answers total retries index pages made).2 := by
  induction pages generalizing index made with
  | nil =>
    refine ⟨by simp [sendFrom], by simp [sendFrom], by simp [sendFrom], ?_, by simp [sendFrom], ?_,
      by simp [sendFrom]⟩
    · intro before attempt after parts
      simp [sendFrom] at parts
    · intro n found
      refine ⟨by simpa [sendFrom] using found.symm, fun page first last => ?_⟩
      rw [List.length_nil] at last
      omega
  | cons page pages ih =>
    obtain ⟨refused, last, parts, few, refusals, attempted, outcome⟩ :=
      sendPage_spec answers index page retries made
    obtain ⟨sorted, counted, accepted⟩ := one_page few refusals attempted
    unfold sendFrom
    cases first : (sendPage answers index page retries made).2 with
    | error message =>
      simp only [first, parts]
      have refused_last : last.accepted = false := by rw [outcome, first]; rfl
      refine ⟨?_, attempted.answered, sorted, ?_, counted, ?_, ?_⟩
      · intro attempt member
        obtain ⟨named, said⟩ := attempted.named attempt member
        exact ⟨named.ge, by simp [named, said]⟩
      · intro before attempt after whole other from_index below
        have named := (attempted.named attempt (by rw [whole]; simp)).1
        omega
      · intro n found
        cases found
      · intro failed text found
        cases found
        refine ⟨le_rfl, by simp, fun other from_index => ?_⟩
        rw [accepted, refused_last]
        simp only [Bool.false_eq_true, false_and, false_iff]
        omega
    | ok _ =>
      have rest := ih (index + 1) (made + (refused ++ [last]).length)
      simp only [first, parts]
      generalize sendFrom answers total retries (index + 1) pages
        (made + (refused ++ [last]).length) = sent at rest
      have accepted_last : last.accepted = true := by rw [outcome, first]; rfl
      have of_index : ∀ attempt ∈ refused ++ [last], attempt.page = index :=
        fun attempt member => (attempted.named attempt member).1
      have here : Accepted (refused ++ [last]) index := (accepted index).mpr ⟨accepted_last, rfl⟩
      refine ⟨?_, ?_, ?_, ?_, ?_, ?_, ?_⟩
      · intro attempt member
        rcases List.mem_append.mp member with now | later
        · obtain ⟨named, said⟩ := attempted.named attempt now
          exact ⟨named.ge, by simp [named, said]⟩
        · obtain ⟨after, found⟩ := rest.bodies attempt later
          have shifted : attempt.page - index = attempt.page - (index + 1) + 1 := by omega
          exact ⟨by omega, by rw [shifted, List.getElem?_cons_succ, found]⟩
      · intro i attempt found
        by_cases now : i < (refused ++ [last]).length
        · rw [List.getElem?_append_left now] at found
          exact attempted.answered i attempt found
        · rw [List.getElem?_append_right (Nat.le_of_not_lt now)] at found
          rw [rest.answered _ attempt found]
          congr 1
          omega
      · refine List.pairwise_append.mpr ⟨sorted, rest.sorted, fun a now b later => ?_⟩
        have after := (rest.bodies b later).1
        have named := of_index a now
        exact ⟨by omega, fun _ => by omega⟩
      · intro before attempt after whole other from_index below
        have both : ∀ earlier, before = (refused ++ [last]) ++ earlier →
            sent.1 = earlier ++ attempt :: after → Accepted before other := by
          rintro earlier rfl later
          rcases Nat.eq_or_lt_of_le from_index with same | beyond
          · exact accepted_append.mpr (Or.inl (same ▸ here))
          · exact accepted_append.mpr
              (Or.inr (rest.accepted_before earlier attempt after later other beyond below))
        rcases List.append_eq_append_iff.mp whole with ⟨earlier, was, later⟩ | ⟨mid, now, later⟩
        · exact both earlier was later
        · cases mid with
          | nil => exact both [] (by simpa using now.symm) later.symm
          | cons head mid =>
            cases (List.cons.inj later).1
            have named := of_index attempt (by rw [now]; simp)
            omega
      · intro other
        rw [List.countP_append]
        by_cases same : other = index
        · have none_later : sent.1.countP (·.page = other) = 0 := by
            rw [List.countP_eq_zero]
            intro attempt later
            have after := (rest.bodies attempt later).1
            simp only [decide_eq_true_eq]
            omega
          rw [none_later]
          exact counted other
        · have none_now : (refused ++ [last]).countP (·.page = other) = 0 := by
            rw [List.countP_eq_zero]
            intro attempt now
            have named := of_index attempt now
            simp only [decide_eq_true_eq]
            omega
          rw [none_now, Nat.zero_add]
          exact rest.retried other
      · intro n found
        obtain ⟨whole, each⟩ := rest.all n found
        refine ⟨whole, fun other from_index below => ?_⟩
        rcases Nat.eq_or_lt_of_le from_index with same | beyond
        · exact accepted_append.mpr (Or.inl (same ▸ here))
        · rw [List.length_cons] at below
          exact accepted_append.mpr (Or.inr (each other beyond (by omega)))
      · intro failed text found
        obtain ⟨after, inside, each⟩ := rest.failed failed text found
        refine ⟨by omega, by rw [List.length_cons]; omega, fun other from_index => ?_⟩
        rw [accepted_append, accepted]
        rcases Nat.eq_or_lt_of_le from_index with same | beyond
        · exact iff_of_true (Or.inl ⟨accepted_last, same.symm⟩) (by omega)
        · rw [each other beyond, or_iff_right (by omega)]

/- Pages sent in their order, each only once all before it are accepted, and no more often than
   the retries allow; the result says which were accepted. -/
structure SentInOrder (answers : Nat → Except PageError Unit) (pages : List T) (backoff : List Nat)
    (attempts : List (Attempt T)) (result : Except (Nat × String) Nat) : Prop where
  bodies : ∀ attempt ∈ attempts, pages[attempt.page]? = some attempt.body
  answered : ∀ i attempt, attempts[i]? = some attempt → attempt.answer = answers i
  sorted : attempts.Pairwise fun a b => a.page ≤ b.page ∧ (a.accepted = true → a.page < b.page)
  accepted_before : ∀ before attempt after, attempts = before ++ attempt :: after →
    ∀ page < attempt.page, Accepted before page
  retried : ∀ page, attempts.countP (·.page = page) ≤ backoff.length + 1
  all_iff : ∀ n, result = .ok n ↔
    n = pages.length ∧ ∀ page < pages.length, Accepted attempts page
  failed_iff : ∀ page, (∃ text, result = .error (page, text)) ↔
    page < pages.length ∧ ∀ other, Accepted attempts other ↔ other < page

theorem sent_in_order (answers : Nat → Except PageError Unit) (pages : List T)
    (backoff : List Nat) : SentInOrder answers pages backoff (sendPages answers pages backoff).1
      (sendPages answers pages backoff).2 := by
  have sent := sendFrom_inOrder answers pages.length backoff.length 0 pages 0
  rw [← sendPages] at sent
  generalize sendPages answers pages backoff = report at sent
  obtain ⟨attempts, result⟩ := report
  have each_failed : ∀ page text, result = .error (page, text) → page < pages.length ∧
      ∀ other, Accepted attempts other ↔ other < page := by
    intro page text failed
    obtain ⟨_, inside, accepted⟩ := sent.failed page text failed
    exact ⟨by omega, fun other => accepted other (Nat.zero_le _)⟩
  have each_sent : ∀ n, result = .ok n → n = pages.length ∧
      ∀ page < pages.length, Accepted attempts page := by
    intro n found
    obtain ⟨whole, accepted⟩ := sent.all n found
    exact ⟨whole, fun page inside => accepted page (Nat.zero_le _) (by omega)⟩
  refine ⟨fun attempt member => (sent.bodies attempt member).2, ?_, sent.sorted,
    fun before attempt after parts page => sent.accepted_before before attempt after parts page
      (Nat.zero_le _), sent.retried, fun n => ⟨each_sent n, ?_⟩, fun page => ⟨?_, ?_⟩⟩
  · intro i attempt found
    rw [sent.answered i attempt found, Nat.zero_add]
  · rintro ⟨rfl, accepted⟩
    cases result with
    | ok n => rw [(each_sent n rfl).1]
    | error failure =>
      obtain ⟨inside, those⟩ := each_failed failure.1 failure.2 rfl
      exact absurd ((those failure.1).mp (accepted failure.1 inside)) (lt_irrefl _)
  · rintro ⟨text, failed⟩
    exact each_failed page text failed
  · rintro ⟨inside, those⟩
    cases result with
    | ok n => exact absurd ((those page).mp ((each_sent n rfl).2 page inside)) (lt_irrefl _)
    | error failure =>
      obtain ⟨_, others⟩ := each_failed failure.1 failure.2 rfl
      have same : ∀ other, other < page ↔ other < failure.1 := fun other =>
        (those other).symm.trans (others other)
      have here : failure.1 = page := by
        have first := same page
        have second := same failure.1
        omega
      exact ⟨failure.2, by rw [← here]⟩

end Order

section Pages
variable {Score : Type} (scoring : Scoring Score)

def maxItems : Nat := maxItemsPerPage * maxPages

/- What the pages say: the findings that can be uploaded, in order, and that the scan is complete
   where it was and all of them fit. -/
structure PagesTell (findings : List (VulnerabilityFinding Score)) (scanType scanId : String)
    (scanComplete : Bool) (pages : List (UploadPage Score)) : Prop where
  findings_in_order : pages.flatMap (·.vulnerabilities) =
    (findings.filterMap (buildItem scoring)).take maxItems
  numbered : pages.map (·.page) = (List.range pages.length).map (· + 1)
  some_page : pages ≠ []
  few_pages : pages.length ≤ maxPages
  each : ∀ page ∈ pages, page.vulnerabilities.length ≤ maxItemsPerPage ∧
    page.pageCount = pages.length ∧ page.scanType = scanType ∧ page.scanId = scanId ∧
    page.scanComplete =
      (scanComplete && decide ((findings.filterMap (buildItem scoring)).length ≤ maxItems))

theorem pages_tell (findings : List (VulnerabilityFinding Score)) (scanType scanId : String)
    (scanComplete : Bool) : PagesTell scoring findings scanType scanId scanComplete
      (buildPages scoring findings scanType scanId scanComplete) := by
  unfold buildPages
  generalize held : findings.filterMap (buildItem scoring) = items
  have sent : (if items.length ≤ maxItemsPerPage * maxPages then items
      else items.take (maxItemsPerPage * maxPages)) = items.take maxItems := by
    split
    · rename_i fits
      exact (List.take_of_length_le fits).symm
    · rfl
  simp only [sent]
  have few : (items.take maxItems).length ≤ maxItemsPerPage * maxPages := List.length_take_le _ _
  generalize kept_eq : items.take maxItems = kept at few
  have pieces_spec : ∀ pieces, pieces = (if kept = [] then [[]]
      else Paged.chunks maxItemsPerPage kept) → pieces.flatten = kept ∧ pieces ≠ [] ∧
        pieces.length ≤ maxPages ∧ ∀ piece ∈ pieces, piece.length ≤ maxItemsPerPage := by
    rintro _ rfl
    split
    · rename_i empty
      subst empty
      exact ⟨rfl, by simp, (by decide : 1 ≤ maxPages), by simp⟩
    · rename_i nonempty
      have whole := @Paged.flatten_chunks _ maxItemsPerPage (by decide) kept
      refine ⟨whole, fun nothing => ?_, Paged.length_cut_le few, fun piece member =>
        Paged.length_of_mem_cut member⟩
      rw [nothing] at whole
      exact nonempty whole.symm
  generalize (if kept = [] then [[]] else Paged.chunks maxItemsPerPage kept) = pieces at pieces_spec
  obtain ⟨whole, some_piece, few_pieces, each⟩ := pieces_spec pieces rfl
  refine ⟨?_, ?_, ?_, ?_, ?_⟩
  · have first : pieces.zipIdx.flatMap Prod.fst = kept := by
      rw [List.flatMap_def, List.zipIdx_map_fst, whole]
    rw [List.flatMap_map, held, kept_eq]
    exact first
  · rw [List.map_map, List.length_map, List.length_zipIdx]
    have places : pieces.zipIdx.map Prod.snd = List.range pieces.length := by
      rw [List.zipIdx_map_snd, List.range_eq_range']
    rw [← places, List.map_map]
    rfl
  · simpa using some_piece
  · simpa using few_pieces
  · intro page member
    obtain ⟨⟨piece, i⟩, found, rfl⟩ := List.mem_map.mp member
    exact ⟨each piece (List.fst_mem_of_mem_zipIdx found), by simp, rfl, rfl, by rw [held]; rfl⟩

end Pages

end SentinelAgent.Vulnerability
