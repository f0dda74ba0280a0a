import SentinelAgent.Scanner.OsvPages

/- A query of the vulnerability database without errors: it is complete, and each finding is
   about the package whose pages list its advisory. -/
namespace SentinelAgent.Osv
open Paged
open Maps (Map)

variable {service : Service} {packages : List OsvQuery} {Score : Type}
  {baseScore : OsvSeverity → Option Score}

def foundIn : DetailFetch Score → Option (Advisory Score)
  | .found advisory => some advisory
  | .gone => none
  | .failed _ => none

def isGone : DetailFetch Score → Bool
  | .gone => true
  | _ => false

theorem lookup_keepFound (details : Map String (Advisory Score)) (ids : List String) (id : String) :
    (ids.foldl (keepFound service packages baseScore) details).lookup id =
      if id ∈ ids then
        (foundIn (fetchDetail service packages baseScore id)).or (details.lookup id)
      else details.lookup id := by
  induction ids generalizing details with
  | nil => rfl
  | cons next ids ih =>
    have one : (keepFound service packages baseScore details next).lookup id =
        if id = next then
          (foundIn (fetchDetail service packages baseScore id)).or (details.lookup id)
        else details.lookup id := by
      unfold keepFound
      by_cases here : id = next
      · rw [if_pos here, here]
        cases fetchDetail service packages baseScore next with
        | found advisory => simp [foundIn]
        | gone => rfl
        | failed e => rfl
      · rw [if_neg here]
        cases fetchDetail service packages baseScore next with
        | found advisory => rw [Maps.lookup_insert_eq, if_neg here]
        | gone => rfl
        | failed e => rfl
    rw [List.foldl_cons, ih, one]
    by_cases here : id = next
    · simp only [here, if_true, List.mem_cons, true_or]
      split
      · rw [← Option.or_assoc, Option.or_self]
      · rfl
    · simp [here]

/- What is reported of one package. -/
def partOf (service : Service) (packages : List OsvQuery) (baseScore : OsvSeverity → Option Score)
    (entry : OsvQuery × List String) : List (PackageCveResult Score) :=
  entry.2.filterMap fun id =>
    (foundIn (fetchDetail service packages baseScore id)).map (buildResult entry.1)

theorem lookup_details {ids : List String} {id : String} (member : id ∈ ids) :
    (fetchVulnerabilityDetails service packages baseScore ids).1.lookup id =
      foundIn (fetchDetail service packages baseScore id) := by
  have arrived : id ∈ service.arrival ids := (service.arrives ids).mem_iff.mpr member
  rw [fetchVulnerabilityDetails, lookup_keepFound, if_pos arrived, Finmap.lookup_empty,
    Option.or_none]

theorem none_failed {ids : List String}
    (quiet : (fetchVulnerabilityDetails service packages baseScore ids).2 = []) {id : String}
    (member : id ∈ ids) : isFailed (fetchDetail service packages baseScore id) = false := by
  have arrived : id ∈ service.arrival ids := (service.arrives ids).mem_iff.mpr member
  have none : (service.arrival ids).filter
      (fun id => isFailed (fetchDetail service packages baseScore id)) = [] :=
    List.Perm.nil_eq (quiet ▸ List.perm_insertionSort _ _) |>.symm
  exact Bool.eq_false_iff.mpr (List.filter_eq_nil_iff.mp none id arrived)

theorem results_eq :
    (queryPackages service packages baseScore).results =
      (packages.zip (askAll service packages).ids).flatMap
        (partOf service packages baseScore) := by
  unfold queryPackages
  split
  · rename_i no_packages
    rw [no_packages]
    rfl
  · simp only
    split
    · rename_i no_ids
      refine (List.flatMap_eq_nil_iff.mpr fun entry member => ?_).symm
      have listed : entry.2 ∈ (askAll service packages).ids := (List.of_mem_zip member).2
      have empty : entry.2 = [] := by
        rw [List.eq_nil_iff_forall_not_mem]
        intro id there
        have kept : id ∈ (askAll service packages).ids.flatten.dedup :=
          List.mem_dedup.mpr (List.mem_flatten.mpr ⟨entry.2, listed, there⟩)
        rw [no_ids] at kept
        cases kept
      rw [partOf, empty]
      rfl
    · refine List.flatMap_congr fun entry member => ?_
      have listed : entry.2 ∈ (askAll service packages).ids := (List.of_mem_zip member).2
      refine List.filterMap_congr fun id there => ?_
      have kept : id ∈ (askAll service packages).ids.flatten.dedup :=
        List.mem_dedup.mpr (List.mem_flatten.mpr ⟨entry.2, listed, there⟩)
      rw [lookup_details kept]

theorem askAll_nil : (askAll service []).errors = [] := rfl

/- Without errors there was none in the batches, and the details of no listed id failed. -/
theorem quiet_query (quiet : (queryPackages service packages baseScore).errors = []) :
    (askAll service packages).errors = [] ∧
      ∀ ids ∈ (askAll service packages).ids, ∀ id ∈ ids,
        isFailed (fetchDetail service packages baseScore id) = false := by
  unfold queryPackages at quiet
  split at quiet
  · rename_i no_packages
    rw [no_packages]
    exact ⟨askAll_nil, nofun⟩
  · simp only at quiet
    split at quiet
    · rename_i no_ids
      refine ⟨quiet, fun ids listed id there => ?_⟩
      have kept : id ∈ (askAll service packages).ids.flatten.dedup :=
        List.mem_dedup.mpr (List.mem_flatten.mpr ⟨ids, listed, there⟩)
      rw [no_ids] at kept
      cases kept
    · split at quiet
      · rename_i fetched
        refine ⟨quiet, fun ids listed id there => none_failed fetched ?_⟩
        exact List.mem_dedup.mpr (List.mem_flatten.mpr ⟨ids, listed, there⟩)
      · simp at quiet

/- Each query was answered in full, page after page to the last. -/
structure Answered (packages : List OsvQuery) (log : List Exchange) : Prop where
  whole : ∀ e ∈ log, e.Whole
  chains : ∀ i < packages.length, Chain (Asks packages i) (pagesOf (pages log) i) none

/- The part of the findings that is about one package: exactly one finding for each advisory
   its pages list that is not gone. -/
def OneEach (service : Service) (packages : List OsvQuery)
    (baseScore : OsvSeverity → Option Score) (query : OsvQuery) (listed : List String)
    (part : List (PackageCveResult Score)) : Prop :=
  ∃ ids : List String, ids.Nodup ∧
    (∀ id, id ∈ ids ↔ id ∈ listed ∧
      isGone (fetchDetail service packages baseScore id) = false) ∧
    List.Forall₂ (fun id result => ∃ advisory,
      fetchDetail service packages baseScore id = .found advisory ∧
        result = buildResult query advisory) ids part

theorem part_found {query : OsvQuery} {ids : List String}
    (fetched : ∀ id ∈ ids, isFailed (fetchDetail service packages baseScore id) = false) :
    List.Forall₂ (fun id result => ∃ advisory,
        fetchDetail service packages baseScore id = .found advisory ∧
          result = buildResult query advisory)
      (ids.filter fun id => !isGone (fetchDetail service packages baseScore id))
      (partOf service packages baseScore (query, ids)) := by
  induction ids with
  | nil => exact List.Forall₂.nil
  | cons id ids ih =>
    have rest := ih fun other member => fetched other (List.mem_cons_of_mem id member)
    have first := fetched id List.mem_cons_self
    simp only [partOf, List.filter_cons, List.filterMap_cons]
    cases detail : fetchDetail service packages baseScore id with
    | found advisory => exact List.Forall₂.cons ⟨advisory, detail, rfl⟩ rest
    | gone => exact rest
    | failed e =>
      rw [detail] at first
      cases first

theorem one_each {query : OsvQuery} {listed : List String}
    (fetched : ∀ id ∈ listed, isFailed (fetchDetail service packages baseScore id) = false) :
    OneEach service packages baseScore query listed
      (partOf service packages baseScore (query, listed.foldl addId [])) := by
  have same : ∀ id, id ∈ listed.foldl addId [] ↔ id ∈ listed := by
    intro id
    rw [mem_addIds]
    exact or_iff_right List.not_mem_nil
  refine ⟨_, ?_, ?_, part_found fun id there => fetched id ((same id).mp there)⟩
  · exact (nodup_addIds List.nodup_nil listed).filter _
  · intro id
    rw [List.mem_filter, same, Bool.not_eq_true']

theorem query_sound (quiet : (queryPackages service packages baseScore).errors = []) :
    Answered packages (askAll service packages).log ∧
      (∀ i < packages.length, ∀ id ∈ idsOn (pages (askAll service packages).log) i,
        isFailed (fetchDetail service packages baseScore id) = false) ∧
      ∃ parts : List (List (PackageCveResult Score)),
        (queryPackages service packages baseScore).results = parts.flatten ∧
        parts.length = packages.length ∧
        ∀ (i : Nat) (query : OsvQuery) (part : List (PackageCveResult Score)),
          packages[i]? = some query → parts[i]? = some part →
            OneEach service packages baseScore query
              (idsOn (pages (askAll service packages).log) i) part := by
  obtain ⟨quiet_batches, fetched⟩ := quiet_query quiet
  have sound := sound_askAll quiet_batches
  have all_fetched : ∀ i < packages.length,
      ∀ id ∈ idsOn (pages (askAll service packages).log) i,
        isFailed (fetchDetail service packages baseScore id) = false := by
    intro i inside id there
    have kept := sound.merged.kept i inside
    exact fetched _ (List.mem_of_getElem? kept) id ((mem_addIds [] _).mpr (Or.inr there))
  refine ⟨⟨sound.whole, fun i inside => followed_done sound.merged.followed inside⟩,
    all_fetched, (packages.zip (askAll service packages).ids).map
      (partOf service packages baseScore), results_eq, ?_, ?_⟩
  · rw [List.length_map, List.length_zip, sound.merged.size, Nat.min_self]
  · intro i query part asked there
    have inside : i < packages.length := (List.getElem?_eq_some_iff.mp asked).1
    have entry : (packages.zip (askAll service packages).ids)[i]? =
        some (query, (idsOn (pages (askAll service packages).log) i).foldl addId []) :=
      List.getElem?_zip_eq_some.mpr ⟨asked, sound.merged.kept i inside⟩
    rw [List.getElem?_map, entry, Option.map_some] at there
    rw [← Option.some.inj there]
    exact one_each (all_fetched i inside)

section Case

def curl : OsvQuery := ⟨"curl", "7.88.1-10", "Debian:12"⟩

def record (id : String) : OsvVulnerability where
  id := id
  summary := none
  details := none
  severity := []
  affected := []
  aliases := []
  upstream := []
  related := []
  references := []
  databaseSpecific := none

/- Two pages, the first after a failed try, and one of the three advisories gone. -/
def twoPages : Service where
  batch number _ attempt :=
    if number = 0 ∧ attempt = 0 then .networkError "timeout"
    else if number = 0 then .response ⟨200, "OK"⟩ "" (.ok [⟨["DSA-1", "DSA-2"], some "more"⟩])
    else .response ⟨200, "OK"⟩ "" (.ok [⟨["DSA-2", "DSA-3"], some ""⟩])
  detail id _ :=
    if id = "DSA-3" then .response ⟨404, "Not Found"⟩ "" (.error "")
    else .response ⟨200, "OK"⟩ "" (.ok (record id))
  arrival ids := ids
  arrives ids := List.Perm.refl ids

end Case
end SentinelAgent.Osv
