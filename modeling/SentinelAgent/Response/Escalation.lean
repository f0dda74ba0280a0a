import SentinelAgent.Library.Bursts
import SentinelAgent.Library.Maps

/-!
Blocks of an address that comes back: how long each one lasts. Times are a clock's, in seconds; two
of them are never so far apart that their difference would not fit.
-/
namespace SentinelAgent.Response
open Bursts Maps

def offenceWindowSecs : Int := 24 * 3600

def sameOffenceSecs : Int := 60

def maxRepeatedBlockSecs : Nat := 7 * 24 * 3600

structure Offence where
  count : Nat
  last : Int
  deriving DecidableEq

/- One more, in 32 bits; the program stops where it does not fit. -/
def countOne (count : Nat) : Option Nat := if count + 1 < 2 ^ 32 then some (count + 1) else none

/- The number of an offence at a time. Close to the last it is the same one. -/
def Offence.numberAt (offence : Offence) (now : Int) : Option Nat :=
  if offence.count = 0 ∨ sameOffenceSecs ≤ now - offence.last then countOne offence.count
  else some offence.count

def saturatingMul (a b : Nat) : Nat := min (a * b) (2 ^ 64 - 1)

def escalatedSecs (requestedSecs number : Nat) : Nat :=
  min (saturatingMul requestedSecs (2 ^ min (number - 1) 16)) (max maxRepeatedBlockSecs requestedSecs)

/- The duration and the number of the offence, and what is remembered of the address. -/
def escalateBlock (offences : Map String Offence) (ip : String) (requestedSecs : UInt64) (now : Int) :
    Option ((Nat × Nat) × Map String Offence) := do
  let offences := offences.retain fun _ offence => now - offence.last < offenceWindowSecs
  let offence := (offences.lookup ip).getD ⟨0, -2 ^ 63⟩
  let number ← offence.numberAt now
  let offences := offences.insert ip ⟨number, now⟩
  if requestedSecs = 0 then return ((0, number), offences)
  else return ((escalatedSecs requestedSecs.toNat number, number), offences)

structure BlockRequest where
  ip : String
  requestedSecs : UInt64
  now : Int
  deriving DecidableEq

/- The blocks of a run, one request after another. -/
def escalate (offences : Map String Offence) : List BlockRequest → Option (List (Nat × Nat))
  | [] => some []
  | request :: rest => do
    let (block, offences) ← escalateBlock offences request.ip request.requestedSecs request.now
    let later ← escalate offences rest
    return block :: later

/-! What the blocks are meant to be. -/

/- The times of the requests for an address, the latest first, as the requests are. -/
def timesOf (ip : String) (past : List BlockRequest) : List Int :=
  (past.filter fun request => request.ip = ip).map fun request => request.now

/- The offences of an address in the day that ends with a request. -/
def recentOffences (past : List BlockRequest) (request : BlockRequest) : Nat :=
  count sameOffenceSecs
    (within offenceWindowSecs request.now (request.now :: timesOf request.ip past))

/- Doubled once for each earlier offence. -/
def repeatedSecs (requestedSecs number : Nat) : Nat :=
  if requestedSecs = 0 then 0
  else min (requestedSecs * 2 ^ (number - 1)) (max maxRepeatedBlockSecs requestedSecs)

def repeatedBlock (past : List BlockRequest) (request : BlockRequest) : Nat × Nat :=
  (repeatedSecs request.requestedSecs.toNat (recentOffences past request),
    recentOffences past request)

def repeatedBlocks (past : List BlockRequest) : List BlockRequest → List (Nat × Nat)
  | [] => []
  | request :: rest => repeatedBlock past request :: repeatedBlocks (request :: past) rest

/- No earlier offence is carried on into the day by requests less than a day apart, and the block
   is not so short that sixteen doublings leave it short of the longest. -/
def Escalates (past : List BlockRequest) (request : BlockRequest) : Prop :=
  Reaches sameOffenceSecs offenceWindowSecs request.now
      (request.now :: timesOf request.ip past) ∧
    (request.requestedSecs = 0 ∨ 10 ≤ request.requestedSecs ∨ recentOffences past request ≤ 17)

def AllEscalate (past : List BlockRequest) : List BlockRequest → Prop
  | [] => True
  | request :: rest => Escalates past request ∧ AllEscalate (request :: past) rest

/-! One request. -/

theorem requested_le_repeated {requestedSecs : Nat} (timed : requestedSecs ≠ 0) (number : Nat) :
    requestedSecs ≤ repeatedSecs requestedSecs number := by
  have doubled : requestedSecs ≤ requestedSecs * 2 ^ (number - 1) :=
    Nat.le_mul_of_pos_right _ (Nat.two_pow_pos _)
  rw [repeatedSecs, if_neg timed]
  omega

/- Sixteen doublings are enough for a block of ten seconds. -/
theorem escalatedSecs_eq {requestedSecs number : Nat} (fits : requestedSecs < 2 ^ 64)
    (timed : requestedSecs ≠ 0) (enough : 10 ≤ requestedSecs ∨ number ≤ 17) :
    escalatedSecs requestedSecs number = repeatedSecs requestedSecs number := by
  rw [escalatedSecs, repeatedSecs, if_neg timed, saturatingMul]
  have capped : max maxRepeatedBlockSecs requestedSecs ≤ 2 ^ 64 - 1 := by
    rw [maxRepeatedBlockSecs]
    omega
  by_cases few : number ≤ 17
  · rw [min_eq_left (show number - 1 ≤ 16 by omega)]
    omega
  · have ten : 10 ≤ requestedSecs := enough.resolve_right few
    have sixteen : max maxRepeatedBlockSecs requestedSecs ≤ requestedSecs * 2 ^ 16 := by
      rw [maxRepeatedBlockSecs]
      omega
    have more : requestedSecs * 2 ^ 16 ≤ requestedSecs * 2 ^ (number - 1) :=
      Nat.mul_le_mul_left _ (Nat.pow_le_pow_right (by decide) (by omega))
    rw [min_eq_right (show 16 ≤ number - 1 by omega)]
    omega

theorem timesOf_same (past : List BlockRequest) (request : BlockRequest) :
    timesOf request.ip (request :: past) = request.now :: timesOf request.ip past := by
  simp [timesOf]

theorem timesOf_other {ip : String} (past : List BlockRequest) {request : BlockRequest}
    (other : ip ≠ request.ip) : timesOf ip (request :: past) = timesOf ip past := by
  simp [timesOf, other.symm]

/- What is remembered of an address is its last request, and the offences chained to it. What is
   forgotten of it is more than a day old. -/
def Recalls (offences : Map String Offence) (past : List BlockRequest) (clock : Int) : Prop :=
  ∀ ip, match offences.lookup ip with
    | some offence =>
      (timesOf ip past).head? = some offence.last ∧
        offence.count = chained sameOffenceSecs offenceWindowSecs (timesOf ip past)
    | none => ∀ last ∈ (timesOf ip past).head?, offenceWindowSecs ≤ clock - last

section Step
variable {offences : Map String Offence} {past : List BlockRequest} {clock : Int}
  {request : BlockRequest}

def kept (offences : Map String Offence) (now : Int) : Map String Offence :=
  offences.retain fun _ offence => now - offence.last < offenceWindowSecs

/- Time passing forgets what it should. -/
theorem recalls_kept (recalls : Recalls offences past clock) {now : Int} (later : clock ≤ now) :
    Recalls (kept offences now) past now := by
  intro ip
  have before := recalls ip
  rw [kept, lookup_retain]
  cases found : offences.lookup ip with
  | none =>
    rw [found] at before
    intro last member
    have := before last member
    omega
  | some offence =>
    rw [found] at before
    by_cases recent : now - offence.last < offenceWindowSecs
    · rw [Option.filter_some_pos (by simpa using recent)]
      exact before
    · rw [Option.filter_some_neg (by simpa using recent)]
      intro last member
      rw [before.1] at member
      obtain rfl := Option.some.inj member
      omega

theorem kept_recent {ip : String} {now : Int} (offence : Offence)
    (found : (kept offences now).lookup ip = some offence) :
    now - offence.last < offenceWindowSecs := by
  simpa using (lookup_retain_eq_some.mp found).2

/- How a request counts, by what is remembered when it comes. -/
theorem counted_next (recalls : Recalls offences past request.now)
    (recent : ∀ offence, offences.lookup request.ip = some offence →
      request.now - offence.last < offenceWindowSecs) (fits : chained sameOffenceSecs
      offenceWindowSecs (request.now :: timesOf request.ip past) < 2 ^ 32) :
    ((offences.lookup request.ip).getD ⟨0, -2 ^ 63⟩).numberAt request.now =
      some (chained sameOffenceSecs offenceWindowSecs (request.now :: timesOf request.ip past)) := by
  have known := recalls request.ip
  cases found : offences.lookup request.ip with
  | none =>
    rw [found] at known
    have first : chained sameOffenceSecs offenceWindowSecs
        (request.now :: timesOf request.ip past) = 1 := by
      cases times : timesOf request.ip past with
      | nil => rfl
      | cons last older =>
        rw [chained, if_pos (known last (by rw [times]; rfl))]
    rw [first]
    rfl
  | some offence =>
    rw [found] at known
    obtain ⟨head, count_eq⟩ := known
    obtain ⟨older, times⟩ : ∃ older, timesOf request.ip past = offence.last :: older := by
      cases times : timesOf request.ip past with
      | nil =>
        rw [times] at head
        cases head
      | cons last older =>
        rw [times] at head
        exact ⟨older, by rw [Option.some.inj head]⟩
    have near : ¬ offenceWindowSecs ≤ request.now - offence.last := not_le.mpr (recent offence found)
    have some_count : offence.count ≠ 0 := by
      rw [count_eq, times]
      exact chained_pos.ne'
    rw [Option.getD_some, Offence.numberAt, times, chained, if_neg near, ← times, ← count_eq]
    rw [times, chained, if_neg near, ← times, ← count_eq] at fits
    by_cases apart : sameOffenceSecs ≤ request.now - offence.last
    · rw [if_pos apart] at fits
      rw [if_pos (Or.inr apart), if_pos apart, countOne, if_pos fits]
    · rw [if_neg (not_or.mpr ⟨some_count, apart⟩), if_neg apart]

/-- The number of an offence is that of the offences chained to the request. -/
theorem escalateBlock_number (recalls : Recalls offences past clock)
    (later : clock ≤ request.now)
    (fits : chained sameOffenceSecs offenceWindowSecs (request.now :: timesOf request.ip past) <
      2 ^ 32) :
    let number :=
      chained sameOffenceSecs offenceWindowSecs (request.now :: timesOf request.ip past)
    escalateBlock offences request.ip request.requestedSecs request.now =
      some ((if request.requestedSecs = 0 then 0
        else escalatedSecs request.requestedSecs.toNat number, number),
          (kept offences request.now).insert request.ip ⟨number, request.now⟩) := by
  intro number
  have counted := counted_next (recalls_kept recalls later) kept_recent fits
  have block : escalateBlock offences request.ip request.requestedSecs request.now =
      ((((kept offences request.now).lookup request.ip).getD ⟨0, -2 ^ 63⟩).numberAt
        request.now).bind fun number =>
          if request.requestedSecs = 0 then
            some ((0, number), (kept offences request.now).insert request.ip ⟨number, request.now⟩)
          else some ((escalatedSecs request.requestedSecs.toNat number, number),
            (kept offences request.now).insert request.ip ⟨number, request.now⟩) := rfl
  rw [block, counted, Option.bind_some]
  split_ifs
  · rfl
  · rfl

/-- What is remembered stays true. -/
theorem recalls_insert (recalls : Recalls offences past clock)
    (later : clock ≤ request.now) :
    Recalls ((kept offences request.now).insert request.ip
        ⟨chained sameOffenceSecs offenceWindowSecs (request.now :: timesOf request.ip past),
          request.now⟩) (request :: past) request.now := by
  intro ip
  rw [lookup_insert_eq]
  by_cases same : ip = request.ip
  · rw [if_pos same, same, timesOf_same]
    exact ⟨rfl, rfl⟩
  · rw [if_neg same, timesOf_other past same]
    exact recalls_kept recalls later ip

end Step

section Sorted
variable {past : List BlockRequest} {request : BlockRequest}

theorem timesOf_sorted {ip : String} (sorted : past.Pairwise fun a b => b.now ≤ a.now) :
    (timesOf ip past).Pairwise fun a b => b ≤ a :=
  List.pairwise_map.mpr (sorted.filter _)

theorem request_sorted (sorted : (request :: past).Pairwise fun a b => b.now ≤ a.now) :
    (request.now :: timesOf request.ip past).Pairwise fun a b => b ≤ a := by
  rw [← timesOf_same]
  exact timesOf_sorted sorted

/- The day of a request begins with it. -/
theorem request_inside (now : Int) : now - now < offenceWindowSecs := by
  rw [offenceWindowSecs]
  omega

/- A day has room for few offences a minute apart. -/
theorem recentOffences_le (sorted : (request :: past).Pairwise fun a b => b.now ≤ a.now) :
    recentOffences past request ≤ 1440 := by
  have inside := request_inside request.now
  have lower : ∀ t ∈ within offenceWindowSecs request.now (request.now :: timesOf request.ip past),
      request.now - offenceWindowSecs + 1 ≤ t := by
    intro t member
    have recent : request.now - t < offenceWindowSecs := by
      simpa using (List.mem_filter.mp member).2
    omega
  have ordered := (request_sorted sorted).filter fun t => request.now - t < offenceWindowSecs
  rw [within_cons inside] at lower
  rw [← within, within_cons inside] at ordered
  have span := @count_span sameOffenceSecs _ _ _ ordered lower
  rw [recentOffences, within_cons inside]
  rw [offenceWindowSecs, sameOffenceSecs] at span ⊢
  omega

end Sorted

section Step
variable {offences : Map String Offence} {past : List BlockRequest} {clock : Int}
  {request : BlockRequest}

/-- A request that meets the condition is answered as it is meant to be. -/
theorem escalateBlock_escalates (recalls : Recalls offences past clock)
    (later : clock ≤ request.now)
    (sorted : (request :: past).Pairwise fun a b => b.now ≤ a.now)
    (escalates : Escalates past request) : ∃ offences',
      escalateBlock offences request.ip request.requestedSecs request.now =
        some (repeatedBlock past request, offences') ∧
      Recalls offences' (request :: past) request.now := by
  obtain ⟨reaches, enough⟩ := escalates
  have number := chained_eq_count (request_sorted sorted) (request_inside request.now) le_rfl reaches
  rw [← recentOffences] at number
  have few := recentOffences_le sorted
  refine ⟨_, ?_, recalls_insert recalls later⟩
  rw [escalateBlock_number recalls later (by omega), number, repeatedBlock]
  congr 3
  split_ifs with permanent
  · rw [permanent]
    rfl
  · have timed : request.requestedSecs.toNat ≠ 0 :=
      fun none_asked => permanent (UInt64.toNat_inj.mp none_asked)
    have long : 10 ≤ request.requestedSecs.toNat ∨ recentOffences past request ≤ 17 :=
      (enough.resolve_left permanent).imp UInt64.le_iff_toNat_le.mp id
    exact escalatedSecs_eq request.requestedSecs.toNat_lt timed long

end Step

/- From any state that recalls the requests so far. -/
theorem escalate_from {requests past : List BlockRequest} {offences : Map String Offence} {clock : Int}
    (recalls : Recalls offences past clock) (sorted : past.Pairwise fun a b => b.now ≤ a.now)
    (before : ∀ earlier ∈ past, earlier.now ≤ clock)
    (increasing : requests.Pairwise fun a b => a.now ≤ b.now)
    (after : ∀ request ∈ requests, clock ≤ request.now) (all : AllEscalate past requests) :
    escalate offences requests = some (repeatedBlocks past requests) := by
  induction requests generalizing past offences clock with
  | nil => rfl
  | cons request rest ih =>
    obtain ⟨escalates, rest_all⟩ := all
    obtain ⟨rest_after, rest_increasing⟩ := List.pairwise_cons.mp increasing
    have later := after request List.mem_cons_self
    have earlier_le : ∀ earlier ∈ past, earlier.now ≤ request.now :=
      fun earlier member => (before earlier member).trans later
    have now_sorted := List.pairwise_cons.mpr ⟨earlier_le, sorted⟩
    obtain ⟨offences', block, recalls'⟩ :=
      escalateBlock_escalates recalls later now_sorted escalates
    have now_before : ∀ earlier ∈ request :: past, earlier.now ≤ request.now := by
      intro earlier member
      rcases List.mem_cons.mp member with rfl | older
      · exact le_rfl
      · exact earlier_le earlier older
    have rest_eq := ih recalls' now_sorted now_before rest_increasing rest_after rest_all
    rw [escalate, block]
    simp only [Option.bind_eq_bind, Option.bind_some, rest_eq]
    rfl

/-- Along requests that all meet the condition, every block has the number of the offences of its
    address in the day before it, and is doubled once for each but the first, so it is never shorter
    than was asked. -/
theorem escalate_repeats {requests : List BlockRequest}
    (increasing : requests.Pairwise fun a b => a.now ≤ b.now) (all : AllEscalate [] requests) :
    escalate ∅ requests = some (repeatedBlocks [] requests) ∧
      ∀ requestedSecs number, requestedSecs ≠ 0 →
        requestedSecs ≤ repeatedSecs requestedSecs number := by
  refine ⟨?_, fun _ number timed => requested_le_repeated timed number⟩
  cases requests with
  | nil => rfl
  | cons first rest =>
    have nothing : Recalls ∅ [] first.now := by
      intro ip
      rw [Finmap.lookup_empty]
      intro last member
      cases member
    have after : ∀ request ∈ first :: rest, first.now ≤ request.now := by
      intro request member
      rcases List.mem_cons.mp member with rfl | later
      · exact le_rfl
      · exact (List.pairwise_cons.mp increasing).1 request later
    exact escalate_from nothing List.Pairwise.nil (fun _ member => by cases member) increasing after all

def attackAt (now : Int) : BlockRequest := ⟨"203.0.113.9", 3600, now⟩

theorem escalate_repeats_twice :
    escalate ∅ [attackAt 0, attackAt 600] = some [(3600, 1), (7200, 2)] := by
  have first : Escalates [] (attackAt 0) :=
    ⟨reaches_recent (by decide), Or.inr (Or.inl (by decide))⟩
  have second : Escalates [attackAt 0] (attackAt 600) :=
    ⟨reaches_recent (by decide), Or.inr (Or.inl (by decide))⟩
  have blocks : repeatedBlocks [] [attackAt 0, attackAt 600] = [(3600, 1), (7200, 2)] := by decide
  have all : AllEscalate [] [attackAt 0, attackAt 600] := ⟨first, second, trivial⟩
  rw [← blocks]
  exact (escalate_repeats (by simp [attackAt]) all).1

/-- At the third request, forty hours after the first, the first still counts. -/
theorem first_offence_kept :
    let requests := [attackAt 0, attackAt 72000, attackAt 144000]
    escalate ∅ requests = some [(3600, 1), (7200, 2), (14400, 3)] ∧
      repeatedBlocks [] requests = [(3600, 1), (7200, 2), (7200, 2)] := by
  decide

end SentinelAgent.Response
