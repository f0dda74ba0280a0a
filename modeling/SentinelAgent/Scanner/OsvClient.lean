import Mathlib.Data.List.Sort
import SentinelAgent.Library.Maps
import SentinelAgent.Library.Paged
import SentinelAgent.Scanner.OsvAdvisory

/- The client of the vulnerability database: packages are asked about in batches and page by
   page, then the details of each advisory are fetched once. -/
namespace SentinelAgent.Osv
open Text Paged
open Maps (Map)

def batchChunkSize : Nat := 1000
def maxExtraPages : Nat := 10
def osvAttempts : Nat := 3

structure Status where
  code : Nat
  reason : String
  deriving DecidableEq

def Status.isSuccess (s : Status) : Bool := 200 ≤ s.code && s.code < 300
def Status.isServerError (s : Status) : Bool := 500 ≤ s.code && s.code < 600
def Status.text (s : Status) : String := s!"{s.code} {s.reason}"

/- What comes of one request: nothing, or a status and a body, which may not be what is
   expected. -/
inductive Reply (A : Type) where
  | networkError (error : String)
  | response (status : Status) (body : String) (read : Except String A)

structure BatchQuery where
  package : OsvQuery
  pageToken : Option String
  deriving DecidableEq

structure BatchResult where
  vulns : List String
  nextPageToken : Option String
  deriving DecidableEq

/- The answers of the service: to each try of the batch of that number, to each try for the
   details of an advisory, and the order in which details asked for together arrive. -/
structure Service where
  batch : Nat → List BatchQuery → Nat → Reply (List BatchResult)
  detail : String → Nat → Reply OsvVulnerability
  arrival : List String → List String
  arrives : ∀ ids, (arrival ids).Perm ids

/- So many tries are left. -/
def postAttempts (answers : Nat → Reply (List BatchResult)) :
    Nat → Nat → String → Except String (List BatchResult)
  | 0, _, lastError => .error lastError
  | left + 1, attempt, _ =>
    match answers attempt with
    | .networkError error => postAttempts answers left (attempt + 1) s!"network error: {error}"
    | .response status body read =>
      if status.isSuccess then
        match read with
        | .ok results => .ok results
        | .error error => .error s!"invalid querybatch response: {error}"
      else
        let lastError := s!"HTTP {status.text}: {truncateUtf16 body 200}"
        if status.isServerError || status.code == 429 then
          postAttempts answers left (attempt + 1) lastError
        else .error lastError

/- The tokens, when there are any, stand at the positions of the indices. -/
def batchQueries (packages : List OsvQuery) (indices : List Nat)
    (pageTokens : Option (List String)) : List BatchQuery :=
  indices.zipIdx.filterMap fun entry =>
    packages[entry.1]?.map fun package => ⟨package, pageTokens.bind fun tokens => tokens[entry.2]?⟩

def postBatch (service : Service) (number : Nat) (queries : List BatchQuery) :
    Except String (List BatchResult) :=
  postAttempts (service.batch number queries) osvAttempts 0 ""

/- The ranges from each multiple of the size. -/
def chunkRanges (total chunkSize : Nat) : List (List Nat) :=
  let size := max chunkSize 1
  (List.range' 0 ((total + size - 1) / size) size).map fun start =>
    List.range' start (min (start + size) total - start)

structure MergeOutcome where
  nextPages : List (Nat × String)
  lengthMismatch : Bool
  deriving DecidableEq

def addId (target : List String) (id : String) : List String :=
  if id ∈ target then target else target ++ [id]

def BatchResult.next (r : BatchResult) : Option String := r.nextPageToken.filter (· ≠ "")

def mergeOne (merged : List (List String) × MergeOutcome) (entry : BatchResult × Nat) :
    List (List String) × MergeOutcome :=
  match merged.1[entry.2]? with
  | none => (merged.1, { merged.2 with lengthMismatch := true })
  | some target =>
    (merged.1.set entry.2 (entry.1.vulns.foldl addId target),
      { merged.2 with
        nextPages := merged.2.nextPages ++ (entry.1.next.map fun token => (entry.2, token)).toList })

/- A result belongs to the index at its position. -/
def mergeBatchResults (ids : List (List String)) (indices : List Nat)
    (results : List BatchResult) : List (List String) × MergeOutcome :=
  (results.zip indices).foldl mergeOne
    (ids, { nextPages := [], lengthMismatch := decide (results.length ≠ indices.length) })

/- A request that was sent and what came of it. -/
structure Exchange where
  indices : List Nat
  queries : List BatchQuery
  answer : Except String (List BatchResult)

/- Where the batches have come to. The exchanges are kept for what is said of them here. -/
structure Progress where
  ids : List (List String)
  pendingPages : List (Nat × String)
  errors : List String
  log : List Exchange

structure Wording where
  mismatch : Nat → String
  failed : Nat → String → String

def firstPage : Wording where
  mismatch n := s!"OSV batch response length mismatch for {n} queries"
  failed n e := s!"OSV batch query failed for {n} packages: {e}"

def laterPage : Wording where
  mismatch n := s!"OSV paginated response length mismatch for {n} queries"
  failed n e := s!"OSV pagination failed for {n} packages: {e}"

section Query
variable (service : Service) (packages : List OsvQuery)

/- One batch of a loop: the two loops differ in what they call their errors. -/
def askBatch (words : Wording) (p : Progress) (indices : List Nat)
    (pageTokens : Option (List String)) : Progress :=
  let queries := batchQueries packages indices pageTokens
  let answer := postBatch service p.log.length queries
  let log := p.log ++ [⟨indices, queries, answer⟩]
  match answer with
  | .ok results =>
    let merged := mergeBatchResults p.ids indices results
    { ids := merged.1
      pendingPages := p.pendingPages ++ merged.2.nextPages
      errors := if merged.2.lengthMismatch then p.errors ++ [words.mismatch indices.length]
        else p.errors
      log := log }
  | .error e => { p with errors := p.errors ++ [words.failed indices.length e], log := log }

def noProgress : Progress where
  ids := List.replicate packages.length []
  pendingPages := []
  errors := []
  log := []

def firstPages : Progress :=
  (chunkRanges packages.length batchChunkSize).foldl
    (fun p indices => askBatch service packages firstPage p indices none) (noProgress packages)

def pageRound (p : Progress) : Progress :=
  (chunks batchChunkSize p.pendingPages).foldl
    (fun p chunk =>
      askBatch service packages laterPage p (chunk.map Prod.fst) (some (chunk.map Prod.snd)))
    { p with pendingPages := [] }

def followPages : Nat → Progress → Progress
  | 0, p => p
  | rounds + 1, p =>
    if p.pendingPages = [] then p else followPages rounds (pageRound service packages p)

/- The ids of each package, and what went wrong. -/
def askAll : Progress :=
  let p := followPages service packages maxExtraPages (firstPages service packages)
  if p.pendingPages = [] then p
  else { p with errors := p.errors ++
    [s!"OSV pagination incomplete for {p.pendingPages.length} packages " ++
      s!"(more than {maxExtraPages} extra pages)"] }

variable {Score : Type} (baseScore : OsvSeverity → Option Score)

inductive DetailFetch (Score : Type) where
  | found (advisory : Advisory Score)
  | gone
  | failed (error : String)

def detailAttempts (keep : String → String → Bool) (answers : Nat → Reply OsvVulnerability) :
    Nat → Nat → String → DetailFetch Score
  | 0, _, lastError => .failed lastError
  | left + 1, attempt, _ =>
    match answers attempt with
    | .networkError error =>
      detailAttempts keep answers left (attempt + 1) s!"network error: {error}"
    | .response status _ read =>
      if status.isSuccess then
        match read with
        | .ok record => .found (fromRecord baseScore keep record)
        | .error error =>
          detailAttempts keep answers left (attempt + 1) s!"invalid advisory body: {error}"
      else if status.code = 404 then .gone
      else if status.isServerError || status.code == 429 then
        detailAttempts keep answers left (attempt + 1) s!"HTTP {status.text}"
      else .failed s!"HTTP {status.text}"

def queried (name ecosystem : String) : Bool :=
  packages.any fun p => p.name = name && p.ecosystem = ecosystem

def fetchDetail (id : String) : DetailFetch Score :=
  detailAttempts baseScore (queried packages) (service.detail id) osvAttempts 0 ""

def keepFound (details : Map String (Advisory Score)) (id : String) : Map String (Advisory Score) :=
  match fetchDetail service packages baseScore id with
  | .found advisory => details.insert id advisory
  | .gone => details
  | .failed _ => details

def isFailed : DetailFetch Score → Bool
  | .failed _ => true
  | _ => false

/- The details found, and the ids of those that could not be fetched. -/
def fetchVulnerabilityDetails (ids : List String) : Map String (Advisory Score) × List String :=
  let arrived := service.arrival ids
  (arrived.foldl (keepFound service packages baseScore) ∅,
    (arrived.filter fun id => isFailed (fetchDetail service packages baseScore id)).insertionSort
      (· ≤ ·))

structure OsvScanOutcome (Score : Type) where
  results : List (PackageCveResult Score)
  errors : List String

def queryPackages : OsvScanOutcome Score :=
  if packages = [] then { results := [], errors := [] }
  else
    let p := askAll service packages
    let uniqueIds := p.ids.flatten.dedup
    if uniqueIds = [] then { results := [], errors := p.errors }
    else
      let fetched := fetchVulnerabilityDetails service packages baseScore uniqueIds
      { results := (packages.zip p.ids).flatMap fun entry => entry.2.filterMap fun id =>
          (fetched.1.lookup id).map (buildResult entry.1)
        errors := match fetched.2 with
          | [] => p.errors
          | first :: rest => p.errors ++
            [s!"OSV advisory details unavailable for {rest.length + 1} of {uniqueIds.length} " ++
              s!"advisories (e.g. {first})"] }

end Query
end SentinelAgent.Osv
