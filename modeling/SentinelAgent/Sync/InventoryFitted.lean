import Mathlib.Algebra.Order.BigOperators.Group.List
import Mathlib.Algebra.Order.Ring.Nat
import SentinelAgent.Library.Json
import SentinelAgent.Sync.SystemInventory

/-!
The inventory brought within the limits of the wire: texts by their UTF-16 units, entries one by one,
the sections by the size of their JSON.
-/
namespace SentinelAgent.SystemInventory
open Json

def maxItemsPerSection : Nat := 5000
def maxSectionBytes : Nat := 512 * 1024
def maxGroupMembers : Nat := 500
def maxShortText : Nat := 128
def maxText : Nat := 255
def maxLongText : Nat := 1024

section Clip

/- What of a text still fits after so many units. -/
def clipFrom (max units : Nat) : List Char → List Char
  | [] => []
  | c :: rest =>
    if units + utf16Size c ≤ max then c :: clipFrom max (units + utf16Size c) rest else []

def clip (text : String) (max : Nat) : String := String.ofList (clipFrom max 0 text.toList)

/- The length is compared in bytes first. -/
def clipInPlace (max : Nat) (text : String) : String :=
  if max < utf8Length text.toList then clip text max else text

def clipOption (max : Nat) (text : Option String) : Option String := text.map (clipInPlace max)

theorem clipFrom_prefix (max units : Nat) (text : List Char) : clipFrom max units text <+: text := by
  induction text generalizing units with
  | nil => exact List.nil_prefix
  | cons c rest ih =>
    unfold clipFrom
    split
    · exact List.cons_prefix_cons.mpr ⟨rfl, ih _⟩
    · exact List.nil_prefix

theorem clipFrom_units {max units : Nat} (fits : units ≤ max) (text : List Char) :
    units + utf16Length (clipFrom max units text) ≤ max := by
  induction text generalizing units with
  | nil => simpa [clipFrom] using fits
  | cons c rest ih =>
    unfold clipFrom
    split
    · rename_i next
      have later := ih next
      rw [utf16Length_cons]
      omega
    · simpa using fits

/-- Every beginning of the text that fits is kept. -/
theorem clipFrom_longest {max units : Nat} {text shorter : List Char} (part : shorter <+: text)
    (fits : units + utf16Length shorter ≤ max) : shorter <+: clipFrom max units text := by
  induction text generalizing units shorter with
  | nil =>
    rw [List.prefix_nil.mp part]
    exact List.nil_prefix
  | cons c rest ih =>
    cases shorter with
    | nil => exact List.nil_prefix
    | cons d shorter =>
      obtain ⟨rfl, rest_part⟩ := List.cons_prefix_cons.mp part
      rw [utf16Length_cons] at fits
      rw [clipFrom, if_pos (by omega)]
      exact List.cons_prefix_cons.mpr ⟨rfl, ih rest_part (by omega)⟩

/- The longest beginning of a text within the limit: no character is cut. -/
structure Clipped (max : Nat) (text clipped : String) : Prop where
  part : clipped.toList <+: text.toList
  within : utf16Length clipped.toList ≤ max
  longest : ∀ shorter, shorter <+: text.toList → utf16Length shorter ≤ max →
    shorter <+: clipped.toList

theorem clipped (max : Nat) (text : String) : Clipped max text (clipInPlace max text) := by
  unfold clipInPlace
  split
  · refine ⟨?_, ?_, fun shorter part fits => ?_⟩
    · simpa [clip] using clipFrom_prefix max 0 text.toList
    · simpa [clip] using clipFrom_units (Nat.zero_le max) text.toList
    · simpa [clip] using clipFrom_longest part (by omega)
  · rename_i short
    have units := utf16Length_le text.toList
    exact ⟨List.prefix_rfl, by omega, fun shorter part _ => part⟩

/-- A text within the limit stays as it is. -/
theorem clip_within {max : Nat} {text : String} (within : utf16Length text.toList ≤ max) :
    clipInPlace max text = text := by
  have kept := (clipped max text).longest _ List.prefix_rfl within
  exact String.toList_inj.mp ((clipped max text).part.eq_of_length_le kept.length_le)

theorem clip_again (max : Nat) (text : String) :
    clipInPlace max (clipInPlace max text) = clipInPlace max text :=
  clip_within (clipped max text).within

theorem clip_option_again (max : Nat) (text : Option String) :
    clipOption max (clipOption max text) = clipOption max text := by
  cases text with
  | none => rfl
  | some text => exact congrArg some (clip_again max text)

end Clip

section Entries

/- A record of the wire: brought within its limits, its JSON, and with their limits its texts. -/
class Entry (T : Type) where
  bounded : T → T
  toJson : T → Json Nat
  texts : T → List (String × Nat)

export Entry (bounded toJson texts)

def textField (key : String) (text : String) : List Char × Json Nat :=
  (key.toList, .string text.toList)

def optionalText (key : String) (text : Option String) : List (List Char × Json Nat) :=
  text.toList.map (textField key)

def flagField (key : String) (flag : Bool) : List Char × Json Nat := (key.toList, .bool flag)

def numberField (key : String) (n : Nat) : List Char × Json Nat := (key.toList, .number n)

def listField (key : String) (texts : List String) : List Char × Json Nat :=
  (key.toList, .array (texts.map fun text => .string text.toList))

/- A text that may be missing, with its limit. -/
def limited (max : Nat) (text : Option String) : List (String × Nat) :=
  text.toList.map fun text => (text, max)

instance : Entry InventoryUserPayload where
  bounded user := { user with
    name := clipInPlace maxText user.name
    id := clipInPlace maxShortText user.id
    groupId := clipOption maxShortText user.groupId
    home := clipOption maxText user.home
    shell := clipOption maxText user.shell }
  toJson user := .object (textField "name" user.name :: textField "id" user.id ::
    (optionalText "group_id" user.groupId ++ optionalText "home" user.home ++
      optionalText "shell" user.shell ++
      [flagField "can_log_in" user.canLogIn, flagField "privileged" user.privileged]))
  texts user := (user.name, maxText) :: (user.id, maxShortText) ::
    (limited maxShortText user.groupId ++ limited maxText user.home ++ limited maxText user.shell)

/- Only the members are a list with a limit of its own. -/
instance : Entry InventoryGroupPayload where
  bounded group := { group with
    name := clipInPlace maxText group.name
    id := clipOption maxShortText group.id
    membersTotal := max group.membersTotal group.members.length
    members := (group.members.take maxGroupMembers).map (clipInPlace maxText) }
  toJson group := .object (textField "name" group.name :: (optionalText "id" group.id ++
    [listField "members" group.members, numberField "members_total" group.membersTotal,
      flagField "privileged" group.privileged]))
  texts group := (group.name, maxText) ::
    (limited maxShortText group.id ++ group.members.map fun member => (member, maxText))

instance : Entry InventoryServicePayload where
  bounded service := { service with
    name := clipInPlace maxText service.name
    state := clipInPlace maxShortText service.state
    command := clipOption maxLongText service.command }
  toJson service := .object (textField "name" service.name :: textField "state" service.state ::
    optionalText "command" service.command)
  texts service := (service.name, maxText) :: (service.state, maxShortText) ::
    limited maxLongText service.command

instance : Entry InventoryPortPayload where
  bounded port := { port with
    protocol := clipInPlace maxShortText port.protocol
    address := clipInPlace maxShortText port.address
    process := clipOption maxText port.process }
  toJson port := .object (textField "protocol" port.protocol :: textField "address" port.address ::
    numberField "port" port.port :: (optionalText "process" port.process ++
      [flagField "local_only" port.localOnly]))
  texts port := (port.protocol, maxShortText) :: (port.address, maxShortText) ::
    limited maxText port.process

instance : Entry InventoryHotfixPayload where
  bounded hotfix := { hotfix with
    id := clipInPlace maxShortText hotfix.id
    description := clipOption maxText hotfix.description
    installedOn := clipOption maxShortText hotfix.installedOn }
  toJson hotfix := .object (textField "id" hotfix.id ::
    (optionalText "description" hotfix.description ++
      optionalText "installed_on" hotfix.installedOn))
  texts hotfix := (hotfix.id, maxShortText) ::
    (limited maxText hotfix.description ++ limited maxShortText hotfix.installedOn)

instance : Entry InventoryContainerPayload where
  bounded container := { container with
    engine := clipInPlace maxShortText container.engine
    id := clipInPlace maxShortText container.id
    name := clipInPlace maxText container.name
    image := clipInPlace maxText container.image
    state := clipInPlace maxShortText container.state
    user := clipOption maxText container.user
    risks := container.risks.map (clipInPlace maxShortText) }
  toJson container := .object ([textField "engine" container.engine, textField "id" container.id,
    textField "name" container.name, textField "image" container.image,
    textField "state" container.state] ++ optionalText "user" container.user ++
    [listField "risks" container.risks, flagField "can_take_host" container.canTakeHost])
  texts container := [(container.engine, maxShortText), (container.id, maxShortText),
    (container.name, maxText), (container.image, maxText), (container.state, maxShortText)] ++
    limited maxText container.user ++ container.risks.map fun risk => (risk, maxShortText)

/- Bringing an entry within the limits clips its texts, and a second time changes nothing. -/
class LawfulEntry (T : Type) [Entry T] : Prop where
  clips : ∀ e : T, ∀ p ∈ texts (bounded e), ∃ text, (text, p.2) ∈ texts e ∧ Clipped p.2 text p.1
  again : ∀ e : T, bounded (bounded e) = bounded e

theorem mem_limited {max : Nat} {text : Option String} {p : String × Nat}
    (member : p ∈ limited max (clipOption max text)) :
    ∃ whole, (whole, p.2) ∈ limited max text ∧ Clipped p.2 whole p.1 := by
  cases text with
  | none => cases member
  | some text =>
    cases List.mem_singleton.mp member
    exact ⟨text, List.mem_singleton.mpr rfl, clipped max text⟩

theorem mem_clipped_list {max : Nat} {several : List String} {p : String × Nat}
    (member : p ∈ (several.map (clipInPlace max)).map fun text => (text, max)) :
    ∃ text ∈ several, p.2 = max ∧ Clipped max text p.1 := by
  rw [List.map_map] at member
  obtain ⟨text, there, rfl⟩ := List.mem_map.mp member
  exact ⟨text, there, rfl, clipped max text⟩

theorem clip_list_again (max : Nat) (several : List String) :
    (several.map (clipInPlace max)).map (clipInPlace max) = several.map (clipInPlace max) := by
  rw [List.map_map]
  exact List.map_congr_left fun text _ => clip_again max text

instance : LawfulEntry InventoryUserPayload where
  clips user p member := by
    simp only [texts, bounded, List.mem_cons, List.mem_append] at member ⊢
    rcases member with rfl | rfl | (member | member) | member
    · exact ⟨user.name, Or.inl rfl, clipped _ _⟩
    · exact ⟨user.id, Or.inr (Or.inl rfl), clipped _ _⟩
    · obtain ⟨text, there, cut⟩ := mem_limited member
      exact ⟨text, Or.inr (Or.inr (Or.inl (Or.inl there))), cut⟩
    · obtain ⟨text, there, cut⟩ := mem_limited member
      exact ⟨text, Or.inr (Or.inr (Or.inl (Or.inr there))), cut⟩
    · obtain ⟨text, there, cut⟩ := mem_limited member
      exact ⟨text, Or.inr (Or.inr (Or.inr there)), cut⟩
  again user := by simp only [bounded, clip_again, clip_option_again]

instance : LawfulEntry InventoryGroupPayload where
  clips group p member := by
    simp only [texts, bounded, List.mem_cons, List.mem_append] at member ⊢
    rcases member with rfl | member | member
    · exact ⟨group.name, Or.inl rfl, clipped _ _⟩
    · obtain ⟨text, there, cut⟩ := mem_limited member
      exact ⟨text, Or.inr (Or.inl there), cut⟩
    · obtain ⟨text, there, limit, cut⟩ := mem_clipped_list member
      refine ⟨text, Or.inr (Or.inr ?_), limit ▸ cut⟩
      exact List.mem_map.mpr ⟨text, List.mem_of_mem_take there, by rw [limit]⟩
  again group := by
    have no_more : ((group.members.take maxGroupMembers).map (clipInPlace maxText)).take
        maxGroupMembers = (group.members.take maxGroupMembers).map (clipInPlace maxText) :=
      List.take_of_length_le (by rw [List.length_map]; exact List.length_take_le _ _)
    have counted : max (max group.membersTotal group.members.length)
        ((group.members.take maxGroupMembers).map (clipInPlace maxText)).length =
          max group.membersTotal group.members.length := by
      rw [List.length_map, List.length_take]
      omega
    simp only [bounded, clip_again, clip_option_again, no_more, counted, clip_list_again]

instance : LawfulEntry InventoryServicePayload where
  clips service p member := by
    simp only [texts, bounded, List.mem_cons] at member ⊢
    rcases member with rfl | rfl | member
    · exact ⟨service.name, Or.inl rfl, clipped _ _⟩
    · exact ⟨service.state, Or.inr (Or.inl rfl), clipped _ _⟩
    · obtain ⟨text, there, cut⟩ := mem_limited member
      exact ⟨text, Or.inr (Or.inr there), cut⟩
  again service := by simp only [bounded, clip_again, clip_option_again]

instance : LawfulEntry InventoryPortPayload where
  clips port p member := by
    simp only [texts, bounded, List.mem_cons] at member ⊢
    rcases member with rfl | rfl | member
    · exact ⟨port.protocol, Or.inl rfl, clipped _ _⟩
    · exact ⟨port.address, Or.inr (Or.inl rfl), clipped _ _⟩
    · obtain ⟨text, there, cut⟩ := mem_limited member
      exact ⟨text, Or.inr (Or.inr there), cut⟩
  again port := by simp only [bounded, clip_again, clip_option_again]

instance : LawfulEntry InventoryHotfixPayload where
  clips hotfix p member := by
    simp only [texts, bounded, List.mem_cons, List.mem_append] at member ⊢
    rcases member with rfl | member | member
    · exact ⟨hotfix.id, Or.inl rfl, clipped _ _⟩
    · obtain ⟨text, there, cut⟩ := mem_limited member
      exact ⟨text, Or.inr (Or.inl there), cut⟩
    · obtain ⟨text, there, cut⟩ := mem_limited member
      exact ⟨text, Or.inr (Or.inr there), cut⟩
  again hotfix := by simp only [bounded, clip_again, clip_option_again]

instance : LawfulEntry InventoryContainerPayload where
  clips container p member := by
    simp only [texts, bounded, List.mem_cons, List.mem_append, List.not_mem_nil, or_false]
      at member ⊢
    rcases member with ((rfl | rfl | rfl | rfl | rfl) | member) | member
    · exact ⟨container.engine, by simp, clipped _ _⟩
    · exact ⟨container.id, by simp, clipped _ _⟩
    · exact ⟨container.name, by simp, clipped _ _⟩
    · exact ⟨container.image, by simp, clipped _ _⟩
    · exact ⟨container.state, by simp, clipped _ _⟩
    · obtain ⟨text, there, cut⟩ := mem_limited member
      exact ⟨text, Or.inl (Or.inr there), cut⟩
    · obtain ⟨text, there, limit, cut⟩ := mem_clipped_list member
      exact ⟨text, Or.inr (List.mem_map.mpr ⟨text, there, by rw [limit]⟩), limit ▸ cut⟩
  again container := by simp only [bounded, clip_again, clip_option_again, clip_list_again]

end Entries

section Sections
variable {T : Type} [Entry T]

def numberText (n : Nat) : List Char := n.repr.toList

def jsonSize (value : Json Nat) : Nat := size numberText value

/- The entry and the comma that follows it. -/
def entrySize (entry : T) : Nat := jsonSize (toJson entry) + 1

def fittedFrom : Nat → Nat → List T → List T
  | _, _, [] => []
  | count, bytes, entry :: rest =>
    if count = maxItemsPerSection then []
    else
      let entry := bounded entry
      if bytes + entrySize entry > maxSectionBytes then []
      else entry :: fittedFrom (count + 1) (bytes + entrySize entry) rest

def fitted (entries : List T) : InventoryList T where
  items := fittedFrom 0 32 entries
  total := entries.length

def listJson (list : InventoryList T) : Json Nat :=
  .object [("items".toList, .array (list.items.map toJson)), numberField "total" list.total]

def sizes (entries : List T) : Nat := (entries.map fun entry => entrySize (bounded entry)).sum

/- So many of the first entries fit besides those there are already. -/
def FitsFrom (count bytes : Nat) (entries : List T) (n : Nat) : Prop :=
  count + n ≤ maxItemsPerSection ∧ bytes + sizes (entries.take n) ≤ maxSectionBytes

theorem fitsFrom_succ {count bytes n : Nat} {entry : T} {rest : List T} :
    FitsFrom count bytes (entry :: rest) (n + 1) ↔
      FitsFrom (count + 1) (bytes + entrySize (bounded entry)) rest n := by
  unfold FitsFrom sizes
  rw [List.take_succ_cons, List.map_cons, List.sum_cons, Nat.add_assoc, Nat.add_assoc,
    Nat.add_comm 1 n]

/-- What is kept are the first entries, as many as fit. -/
theorem fittedFrom_longest {count bytes : Nat} (room : count ≤ maxItemsPerSection)
    (room' : bytes ≤ maxSectionBytes) (entries : List T) :
    ∃ n, n ≤ entries.length ∧ fittedFrom count bytes entries = (entries.take n).map bounded ∧
      FitsFrom count bytes entries n ∧
        ∀ m, m ≤ entries.length → FitsFrom count bytes entries m → m ≤ n := by
  induction entries generalizing count bytes with
  | nil => exact ⟨0, Nat.le_refl 0, rfl, ⟨room, room'⟩, fun m short _ => short⟩
  | cons entry rest ih =>
    have nothing (stop : ∀ n, ¬ FitsFrom count bytes (entry :: rest) (n + 1)) :
        ∃ n, n ≤ (entry :: rest).length ∧ [] = ((entry :: rest).take n).map bounded ∧
          FitsFrom count bytes (entry :: rest) n ∧ ∀ m, m ≤ (entry :: rest).length →
            FitsFrom count bytes (entry :: rest) m → m ≤ n := by
      refine ⟨0, Nat.zero_le _, rfl, ⟨room, room'⟩, fun m _ fits => ?_⟩
      cases m with
      | zero => exact Nat.le_refl 0
      | succ m => exact absurd fits (stop m)
    unfold fittedFrom
    split
    · rename_i full
      refine nothing fun n fits => ?_
      have count_fits := fits.1
      omega
    · simp only
      split
      · rename_i too_long
        refine nothing fun n fits => ?_
        have bytes_fit := (fitsFrom_succ.mp fits).2
        omega
      · obtain ⟨n, short, kept, fits, longest⟩ := @ih (count + 1)
          (bytes + entrySize (bounded entry)) (by omega) (by omega)
        refine ⟨n + 1, Nat.succ_le_succ short, ?_, fitsFrom_succ.mpr fits, fun m short' fits' => ?_⟩
        · rw [kept, List.take_succ_cons, List.map_cons]
        · cases m with
          | zero => exact Nat.zero_le _
          | succ m =>
            exact Nat.succ_le_succ (longest m (Nat.le_of_succ_le_succ short')
              (fitsFrom_succ.mp fits'))

/- `{"items":[],"total":` and the brace at the end are 21 bytes; the last entry has no comma. -/
theorem listJson_size (list : InventoryList T) : jsonSize (listJson list) ≤
    21 + ((list.items.map entrySize).sum - 1) + utf8Length (numberText list.total) := by
  have opens : '{'.utf8Size = 1 := by decide
  have closes : '}'.utf8Size = 1 := by decide
  have opens' : '['.utf8Size = 1 := by decide
  have closes' : ']'.utf8Size = 1 := by decide
  have colon : ':'.utf8Size = 1 := by decide
  have comma : ','.utf8Size = 1 := by decide
  have items_key : utf8Length (quote "items".toList) = 7 := by decide
  have total_key : utf8Length (quote "total".toList) = 7 := by decide
  have items : utf8Length (textItems numberText (list.items.map toJson)) ≤
      (list.items.map entrySize).sum - 1 := by
    by_cases none_kept : list.items = []
    · simp [none_kept, textItems]
    · have some_kept : list.items.map toJson ≠ [] := by simpa using none_kept
      have exactly := utf8Length_textItems numberText some_kept
      rw [List.map_map] at exactly
      have same : (list.items.map ((fun item => size numberText item + 1) ∘ toJson)).sum =
          (list.items.map entrySize).sum := rfl
      omega
  simp only [jsonSize, size, listJson, numberField, text, textFields, utf8Length_cons,
    utf8Length_append, utf8Length_nil, opens, closes, opens', closes', colon, comma, items_key,
    total_key]
  omega

theorem utf8Length_numberText {n digits : Nat} (positive : 0 < digits) (small : n < 10 ^ digits) :
    utf8Length (numberText n) ≤ digits := by
  rw [numberText, Nat.toList_repr, utf8Length_ascii]
  · exact (Nat.length_toDigits_le_iff (by decide) positive).mpr small
  · intro c member
    have digit := Nat.isDigit_of_mem_toDigits (by decide) (by decide) member
    simp only [Char.isDigit, Bool.and_eq_true, decide_eq_true_eq, UInt32.le_iff_toNat_le] at digit
    have value : c.val.toNat = c.toNat := rfl
    have top : ('9'.val).toNat = 57 := rfl
    omega

/- A section made of some entries. -/
structure Fitted (entries : List T) (list : InventoryList T) : Prop where
  total : list.total = entries.length
  longest : ∃ n, n ≤ entries.length ∧ list.items = (entries.take n).map bounded ∧
    FitsFrom 0 32 entries n ∧ ∀ m, m ≤ entries.length → FitsFrom 0 32 entries m → m ≤ n
  clips : ∀ item ∈ list.items, ∃ entry ∈ entries, item = bounded entry ∧
    ∀ p ∈ texts item, ∃ text, (text, p.2) ∈ texts entry ∧ Clipped p.2 text p.1
  few : list.items.length ≤ maxItemsPerSection
  small : list.total < 10 ^ 12 → jsonSize (listJson list) ≤ maxSectionBytes
  again : (fitted list.items).items = list.items

variable [LawfulEntry T]

theorem fitted_right (entries : List T) : Fitted entries (fitted entries) := by
  obtain ⟨n, short, kept, fits, longest⟩ :=
    fittedFrom_longest (by decide : 0 ≤ maxItemsPerSection) (by decide : 32 ≤ maxSectionBytes) entries
  have items : (fitted entries).items = (entries.take n).map bounded := kept
  have same_sizes : sizes (fitted entries).items = sizes (entries.take n) := by
    rw [items, sizes, sizes, List.map_map]
    exact congrArg List.sum (List.map_congr_left fun entry _ =>
      congrArg entrySize (LawfulEntry.again entry))
  have length : (fitted entries).items.length = n := by
    rw [items, List.length_map, List.length_take, Nat.min_eq_left short]
  refine ⟨rfl, ⟨n, short, items, fits, longest⟩, fun item member => ?_, ?_, fun total_small => ?_, ?_⟩
  · rw [items] at member
    obtain ⟨entry, there, rfl⟩ := List.mem_map.mp member
    exact ⟨entry, List.mem_of_mem_take there, rfl, LawfulEntry.clips entry⟩
  · rw [length, ← Nat.zero_add n]
    exact fits.1
  · have digits := utf8Length_numberText (by decide) total_small
    have bound := listJson_size (fitted entries)
    have bounded_sizes : ((fitted entries).items.map entrySize).sum = sizes (entries.take n) := by
      rw [items, sizes, List.map_map]
      rfl
    have bytes : 32 + sizes (entries.take n) ≤ maxSectionBytes := fits.2
    rw [bounded_sizes] at bound
    have limit : 32 + 1 ≤ maxSectionBytes := by decide
    omega
  · obtain ⟨m, short', kept', _, longest'⟩ := fittedFrom_longest
      (by decide : 0 ≤ maxItemsPerSection) (by decide : 32 ≤ maxSectionBytes) (fitted entries).items
    have all : m = (fitted entries).items.length := by
      refine Nat.le_antisymm short' (longest' _ (Nat.le_refl _) ⟨?_, ?_⟩)
      · rw [length]
        exact fits.1
      · rw [List.take_length, same_sizes]
        exact fits.2
    have unchanged : (fitted entries).items.map bounded = (fitted entries).items := by
      rw [items, List.map_map]
      exact List.map_congr_left fun entry _ => LawfulEntry.again entry
    rw [all, List.take_length, unchanged] at kept'
    exact kept'

end Sections

section Machine

/- Fields that may be missing are left out. -/
def optionalFields (fields : List (String × Option (Json Nat))) : List (List Char × Json Nat) :=
  fields.filterMap fun field => field.2.map fun value => (field.1.toList, value)

def textValue (text : Option String) : Option (Json Nat) := text.map fun text => .string text.toList

def numberValue (n : Option Nat) : Option (Json Nat) := n.map .number

/- How a time is written. -/
variable (timeText : Int → List Char)

def timeValue (time : Option Int) : Option (Json Nat) := time.map fun time => .string (timeText time)

def InventorySystemPayload.bounded (system : InventorySystemPayload) : InventorySystemPayload :=
  { system with
    hostname := clipOption maxText system.hostname
    osName := clipOption maxText system.osName
    osVersion := clipOption maxText system.osVersion
    kernel := clipOption maxText system.kernel
    architecture := clipOption maxText system.architecture
    manufacturer := clipOption maxText system.manufacturer
    model := clipOption maxText system.model
    serialNumber := clipOption maxText system.serialNumber
    processor := clipOption maxText system.processor }

def InventorySystemPayload.texts (system : InventorySystemPayload) : List (Option String) :=
  [system.hostname, system.osName, system.osVersion, system.kernel, system.architecture,
    system.manufacturer, system.model, system.serialNumber, system.processor]

def InventorySystemPayload.toJson (system : InventorySystemPayload) : Json Nat :=
  .object (optionalFields [("hostname", textValue system.hostname),
    ("os_name", textValue system.osName), ("os_version", textValue system.osVersion),
    ("kernel", textValue system.kernel), ("architecture", textValue system.architecture),
    ("manufacturer", textValue system.manufacturer), ("model", textValue system.model),
    ("serial_number", textValue system.serialNumber), ("processor", textValue system.processor),
    ("cores", numberValue system.cores), ("threads", numberValue system.threads),
    ("memory_bytes", numberValue system.memoryBytes),
    ("booted_at", timeValue timeText system.bootedAt)])

/- The numbers are machine integers. -/
structure InventorySystemPayload.InRange (system : InventorySystemPayload) : Prop where
  cores : ∀ n ∈ system.cores, n < 2 ^ 32
  threads : ∀ n ∈ system.threads, n < 2 ^ 32
  memoryBytes : ∀ n ∈ system.memoryBytes, n < 2 ^ 64

theorem system_bounded_again (system : InventorySystemPayload) :
    system.bounded.bounded = system.bounded := by
  simp only [InventorySystemPayload.bounded, clip_option_again]

/- No field of the machine takes more than this. -/
def Short (value : Option (Json Nat)) : Prop := ∀ v ∈ value, jsonSize v ≤ 2000

theorem short_text {text : Option String} : Short (textValue (clipOption maxText text)) := by
  intro v member
  cases text with
  | none => cases member
  | some text =>
    cases Option.mem_some_iff.mp member
    have units := (clipped maxText text).within
    have bytes := utf8Length_quote_le (clipInPlace maxText text).toList
    have limit : maxText = 255 := rfl
    simp only [jsonSize, size, Json.text]
    omega

theorem short_number {n : Option Nat} (small : ∀ m ∈ n, m < 2 ^ 64) : Short (numberValue n) := by
  intro v member
  cases n with
  | none => cases member
  | some n =>
    cases Option.mem_some_iff.mp member
    have digits : utf8Length (numberText n) ≤ 20 :=
      utf8Length_numberText (by decide) (Nat.lt_trans (small n rfl) (by decide))
    simp only [jsonSize, size, Json.text]
    omega

theorem short_time {timeText : Int → List Char} (brief : ∀ t, utf16Length (timeText t) ≤ 40)
    {time : Option Int} : Short (timeValue timeText time) := by
  intro v member
  cases time with
  | none => cases member
  | some time =>
    cases Option.mem_some_iff.mp member
    have bytes := utf8Length_quote_le (timeText time)
    have units := brief time
    simp only [jsonSize, size, Json.text]
    omega

theorem size_optionalFields {fields : List (String × Option (Json Nat))}
    (short : ∀ field ∈ fields, Short field.2)
    (keys : ∀ field ∈ fields, utf8Length (quote field.1.toList) ≤ 100) :
    jsonSize (.object (optionalFields fields)) ≤ 2102 * fields.length + 2 := by
  have whole := size_object_le numberText (optionalFields fields)
  have each : ∀ length ∈ (optionalFields fields).map fun field =>
      utf8Length (quote field.1) + size numberText field.2 + 2, length ≤ 2102 := by
    intro length member
    obtain ⟨field, there, rfl⟩ := List.mem_map.mp member
    obtain ⟨source, source_there, found⟩ := List.mem_filterMap.mp there
    obtain ⟨value, value_there, rfl⟩ := Option.map_eq_some_iff.mp found
    have value_short : size numberText value ≤ 2000 := short source source_there value value_there
    have key_short := keys source source_there
    simp only
    omega
  have total := List.sum_le_card_nsmul _ _ each
  have fewer : (optionalFields fields).length ≤ fields.length := List.length_filterMap_le _ _
  rw [List.length_map, Nat.nsmul_eq_mul] at total
  simp only [jsonSize]
  omega

theorem system_size {timeText : Int → List Char} (brief : ∀ t, utf16Length (timeText t) ≤ 40)
    {system : InventorySystemPayload} (range : system.InRange) :
    jsonSize (system.bounded.toJson timeText) ≤ maxSectionBytes := by
  have short : ∀ n : Option Nat, (∀ m ∈ n, m < 2 ^ 32) → ∀ m ∈ n, m < 2 ^ 64 :=
    fun n small m member => Nat.lt_trans (small m member) (by decide)
  have enough : 2102 * 13 + 2 ≤ maxSectionBytes := by decide
  refine Nat.le_trans (size_optionalFields ?_ ?_) enough
  · simp only [List.forall_mem_cons]
    exact ⟨short_text, short_text, short_text, short_text, short_text, short_text, short_text,
      short_text, short_text, short_number (short _ range.cores),
      short_number (short _ range.threads), short_number range.memoryBytes, short_time brief,
      fun _ member => absurd member List.not_mem_nil⟩
  · simp only [List.forall_mem_cons]
    decide

end Machine

section Upload

/- The whole inventory, entries not yet brought within the limits. -/
structure SystemInventoryParts where
  collectedAt : Int
  system : Option InventorySystemPayload
  users : List InventoryUserPayload
  groups : List InventoryGroupPayload
  services : List InventoryServicePayload
  listeningPorts : List InventoryPortPayload
  hotfixes : List InventoryHotfixPayload
  containers : List InventoryContainerPayload

def unknownSystem : InventorySystemPayload :=
  ⟨none, none, none, none, none, none, none, none, none, none, none, none, none⟩

def SystemInventoryParts.inventory (parts : SystemInventoryParts) : Inventory
  | .system => (parts.system.getD unknownSystem).bounded
  | .users => fitted parts.users
  | .groups => fitted parts.groups
  | .services => fitted parts.services
  | .listeningPorts => fitted parts.listeningPorts
  | .hotfixes => fitted parts.hotfixes
  | .containers => fitted parts.containers

def fullUpload (parts : SystemInventoryParts) : SystemInventoryUpload :=
  SystemInventoryUpload.whole parts.collectedAt parts.inventory

/- A section of the upload, made of the entries collected. -/
def SectionFitted {T : Type} [Entry T] (entries : List T) (section' : Option (InventoryList T)) :
    Prop :=
  ∃ list, section' = some list ∧ Fitted entries list

/- The description of the machine within its limits. -/
structure SystemFitted (timeText : Int → List Char) (system fitted : InventorySystemPayload) :
    Prop where
  clips : List.Forall₂ (fun whole text =>
    Option.Rel (Clipped maxText) whole text) system.texts fitted.texts
  small : jsonSize (fitted.toJson timeText) ≤ maxSectionBytes
  again : fitted.bounded = fitted

/- The members listed are the first ones, and the group says how many it has. -/
structure MembersFitted (group fitted : InventoryGroupPayload) : Prop where
  first : List.Forall₂ (fun whole member => Clipped maxText whole member)
    (group.members.take maxGroupMembers) fitted.members
  few : fitted.members.length ≤ maxGroupMembers
  total : fitted.membersTotal = max group.membersTotal group.members.length

structure UploadFitted (timeText : Int → List Char) (parts : SystemInventoryParts)
    (upload : SystemInventoryUpload) : Prop where
  system : ∃ fitted, upload.parts .system = some fitted ∧
    SystemFitted timeText (parts.system.getD unknownSystem) fitted
  users : SectionFitted parts.users (upload.parts .users)
  groups : SectionFitted parts.groups (upload.parts .groups)
  members : ∀ list, upload.parts .groups = some list → ∀ fitted ∈ InventoryList.items list,
    ∃ group ∈ parts.groups, MembersFitted group fitted
  services : SectionFitted parts.services (upload.parts .services)
  listeningPorts : SectionFitted parts.listeningPorts (upload.parts .listeningPorts)
  hotfixes : SectionFitted parts.hotfixes (upload.parts .hotfixes)
  containers : SectionFitted parts.containers (upload.parts .containers)

theorem clipped_list (several : List String) :
    List.Forall₂ (fun whole text => Clipped maxText whole text) several
      (several.map (clipInPlace maxText)) := by
  induction several with
  | nil => exact List.Forall₂.nil
  | cons text several ih => exact List.Forall₂.cons (clipped maxText text) ih

theorem clipped_options (several : List (Option String)) :
    List.Forall₂ (fun whole text => Option.Rel (Clipped maxText) whole text) several
      (several.map (clipOption maxText)) := by
  induction several with
  | nil => exact List.Forall₂.nil
  | cons text several ih =>
    refine List.Forall₂.cons ?_ ih
    cases text with
    | none => exact Option.Rel.none
    | some text => exact Option.Rel.some (clipped maxText text)

theorem members_fitted (group : InventoryGroupPayload) : MembersFitted group (bounded group) where
  first := clipped_list _
  few := by
    have short := List.length_take_le maxGroupMembers group.members
    simpa only [bounded, List.length_map] using short
  total := rfl

/-- Every section is within the limits and loses as little as they allow. -/
theorem inventory_fitted {timeText : Int → List Char}
    (brief : ∀ t, utf16Length (timeText t) ≤ 40) (parts : SystemInventoryParts)
    (range : ∀ system ∈ parts.system, system.InRange) :
    UploadFitted timeText parts (fullUpload parts) where
  system := by
    refine ⟨_, rfl, clipped_options _, system_size brief ?_, system_bounded_again _⟩
    · cases known : parts.system with
      | none =>
        exact ⟨fun n member => absurd member (Option.not_mem_none n),
          fun n member => absurd member (Option.not_mem_none n),
          fun n member => absurd member (Option.not_mem_none n)⟩
      | some system => exact range system known
  users := ⟨_, rfl, fitted_right parts.users⟩
  groups := ⟨_, rfl, fitted_right parts.groups⟩
  members := by
    intro list held fitted_group member
    cases held
    obtain ⟨group, there, rfl, _⟩ := (fitted_right parts.groups).clips fitted_group member
    exact ⟨group, there, members_fitted group⟩
  services := ⟨_, rfl, fitted_right parts.services⟩
  listeningPorts := ⟨_, rfl, fitted_right parts.listeningPorts⟩
  hotfixes := ⟨_, rfl, fitted_right parts.hotfixes⟩
  containers := ⟨_, rfl, fitted_right parts.containers⟩

def server : SystemInventoryParts where
  collectedAt := 0
  system := some { unknownSystem with hostname := some "srv", cores := some 4, bootedAt := some 0 }
  users := [{ name := "root", id := "0", groupId := none, home := none, shell := none,
              canLogIn := true, privileged := true }]
  groups := []
  services := []
  listeningPorts := []
  hotfixes := []
  containers := []

theorem inventory_fitted_server :
    UploadFitted (fun _ => "2026-10-16T09:00:00Z".toList) server (fullUpload server) :=
  inventory_fitted (fun _ => by decide) server fun system known => by
    cases Option.mem_some_iff.mp known
    exact ⟨by decide, by decide, by decide⟩

def longNamed : InventoryServicePayload where
  name := String.ofList (List.replicate 197 'a')
  state := ""
  command := none

theorem longNamed_name : longNamed.name.toList = List.replicate 197 'a' := String.toList_ofList

theorem longNamed_bounded : bounded longNamed = longNamed := by
  have name : clipInPlace maxText longNamed.name = longNamed.name := by
    refine clip_within ?_
    rw [longNamed_name, utf16Length, List.map_replicate, List.sum_replicate]
    decide
  have state : clipInPlace maxShortText longNamed.state = longNamed.state :=
    clip_within (Nat.zero_le maxShortText)
  simp only [bounded, name, state]
  rfl

theorem longNamed_size : entrySize longNamed = 220 := by
  have opens : '{'.utf8Size = 1 := by decide
  have closes : '}'.utf8Size = 1 := by decide
  have colon : ':'.utf8Size = 1 := by decide
  have comma : ','.utf8Size = 1 := by decide
  have name_key : utf8Length (quote "name".toList) = 6 := by decide
  have state_key : utf8Length (quote "state".toList) = 7 := by decide
  have state : utf8Length (quote "".toList) = 2 := by decide
  have name : utf8Length (quote (List.replicate 197 'a')) = 199 := by
    have mark : '"'.utf8Size = 1 := by decide
    have letter : 'a'.utf8Size = 1 := by decide
    have plain : escapeChar 'a' = ['a'] := by decide
    rw [quote, escape, List.flatMap_replicate, plain, List.flatten_replicate_singleton,
      utf8Length_cons, utf8Length_append, utf8Length, List.map_replicate, List.sum_replicate,
      letter, utf8Length_cons, mark]
    rfl
  have no_state : longNamed.state = "" := rfl
  have no_command : longNamed.command = none := rfl
  simp only [entrySize, jsonSize, size, toJson, textField, optionalText, no_state, no_command,
    Option.toList_none, List.map_nil, Json.text, textFields, utf8Length_cons, utf8Length_append,
    utf8Length_nil, opens, closes, colon, comma, name_key, state_key, state, longNamed_name, name]

/-- Every entry would fit, and one is left out; and a section made again of what was kept says
that nothing is missing. -/
theorem room_left_over : ∃ entries : List InventoryServicePayload,
    entries.length ≤ maxItemsPerSection ∧
      jsonSize (listJson { items := entries.map bounded, total := entries.length }) ≤
        maxSectionBytes ∧
      (fitted entries).items.length < entries.length ∧
      (fitted (fitted entries).items).total ≠ (fitted entries).total := by
  have limit : maxSectionBytes = 524288 := rfl
  obtain ⟨entries, many⟩ : ∃ entries, entries = List.replicate 2383 longNamed := ⟨_, rfl⟩
  have length : entries.length = 2383 := by rw [many, List.length_replicate]
  refine ⟨entries, ?_, ?_, ?_⟩
  · rw [length]
    decide
  · have bound := listJson_size { items := entries.map bounded, total := entries.length }
    have digits : utf8Length (numberText 2383) ≤ 4 := utf8Length_numberText (by decide) (by decide)
    have sum : ((entries.map bounded).map entrySize).sum = 2383 * 220 := by
      rw [many, List.map_replicate, List.map_replicate, longNamed_bounded, longNamed_size,
        List.sum_replicate, Nat.nsmul_eq_mul]
    simp only [length, sum] at bound ⊢
    omega
  · obtain ⟨n, short, kept, fits, _⟩ := fittedFrom_longest
      (by decide : 0 ≤ maxItemsPerSection) (by decide : 32 ≤ maxSectionBytes) entries
    have items : (fitted entries).items = (entries.take n).map bounded := kept
    have room := fits.2
    have again : (fitted (fitted entries).items).total = (fitted entries).items.length := rfl
    have total : (fitted entries).total = entries.length := rfl
    rw [again, total, items, List.length_map, List.length_take, length]
    rw [many, List.take_replicate, sizes, List.map_replicate, List.sum_replicate,
      longNamed_bounded, longNamed_size, Nat.nsmul_eq_mul] at room
    omega

end Upload

end SentinelAgent.SystemInventory
