import SentinelAgent.Network.AddressParsed
import SentinelAgent.Response.Playbook

/-!
A playbook that an operator starts by hand: each action takes its target from its own parameters.
-/
namespace SentinelAgent.Response
open Isolation Network Text

/- A command is told the playbook, and that it was started by hand. -/
inductive ManualAction where
  | resolved (action : ResolvedAction)
  | runCommand (name playbook : String)
  deriving DecidableEq

/- `process_name:pid` -/
def killTarget (parameters : String) : List ResolvedAction :=
  match splitn 2 ':' parameters with
  | [name, pid] =>
    match parseUnsigned 32 pid with
    | some pid => [.killProcess name (UInt32.ofNat pid)]
    | none => []
  | _ => []

/- `ip:duration_secs`, or the bare address (an IPv6 one has colons of its own). -/
def blockTarget (parameters : String) : List ResolvedAction :=
  let parameters := trim parameters
  let (ip, duration) := match parseIpAddr parameters with
    | some _ => (parameters, none)
    | none =>
      match splitLast ':' parameters with
      | some (ip, duration) => (ip, some duration)
      | none => (parameters, none)
  if (parseIpAddr ip).isSome then
    [.blockIp ip ((duration.map blockDuration).getD defaultBlockSecs)]
  else []

/- `account`, or `account:duration_secs`. A number alone is no account. -/
def lockTarget (parameters : String) : List ResolvedAction :=
  let parts := splitn 2 ':' parameters
  let user := trim (parts.head?.getD "")
  if user ≠ "" ∧ allDigits user = false then
    [.disableAccount user (accountLockDuration (parts[1]?.getD ""))]
  else []

def resolveManualAction (playbook : Playbook) (action : PlaybookAction) : List ManualAction :=
  match action.actionType with
  | .killProcess => (killTarget action.parameters).map .resolved
  | .quarantineFile => [.resolved (.quarantineFile action.parameters)]
  | .blockIp => (blockTarget action.parameters).map .resolved
  | .isolateHost => [.resolved (.isolateHost (isolationDuration action.parameters))]
  | .sendSiemAlert =>
    [.resolved (.alert ("Playbook '" ++ playbook.name ++ "' SIEM alert") "medium" action.parameters)]
  | .createNotification => [.resolved (.notify action.parameters)]
  | .disableAccount => (lockTarget action.parameters).map .resolved
  | .runCommand => [.runCommand (trim action.parameters) playbook.name]

def resolveManualActions (playbook : Playbook) : List ManualAction :=
  playbook.actions.flatMap (resolveManualAction playbook)

/-! The texts of addresses. -/

section Texts

theorem hex_plain {c : Char} (digit : (digitOf 16 c).isSome = true) : isWhitespace c = false := by
  by_contra white
  rw [Bool.not_eq_false, isWhitespace, decide_eq_true_eq] at white
  have value : hexValue c = none := by
    have code : c.toNat = c.val.toNat := rfl
    have digits : '0'.val.toNat = 48 ∧ '9'.val.toNat = 57 := by decide
    have lower : 'a'.val.toNat = 97 ∧ 'f'.val.toNat = 102 := by decide
    have upper : 'A'.val.toNat = 65 ∧ 'F'.val.toNat = 70 := by decide
    rw [hexValue, if_neg, if_neg, if_neg]
    all_goals
      simp only [Char.isDigit, Char.le_def, UInt32.le_iff_toNat_le, Bool.and_eq_true,
        decide_eq_true_eq, ge_iff_le]
      omega
  rw [digitOf, value] at digit
  cases digit

theorem groupsText_plain (groups : List Nat) : ∀ c ∈ groupsText groups, isWhitespace c = false := by
  have digits (n : Nat) : ∀ c ∈ Nat.toDigits 16 n, isWhitespace c = false :=
    fun c member => hex_plain (digitOf_digits (by omega) (by omega) n c member)
  match groups with
  | [] => simp [groupsText]
  | [group] =>
    have one : groupsText [group] = Nat.toDigits 16 group := by simp [groupsText]
    rw [one]
    exact digits group
  | group :: next :: groups =>
    intro c member
    rw [groupsText_cons, List.mem_append, List.mem_cons] at member
    rcases member with here | rfl | later
    · exact digits group c here
    · decide
    · exact groupsText_plain (next :: groups) c later

theorem decimal_plain (n : Nat) : ∀ c ∈ Nat.toDigits 10 n, isWhitespace c = false :=
  fun c member => hex_plain (decimal_hex_digits n c member)

theorem ipv4Text_plain (address : Nat) : ∀ c ∈ ipv4Text address, isWhitespace c = false := by
  have dot : isWhitespace '.' = false := by decide
  intro c member
  rw [ipv4Text_eq] at member
  simp only [List.mem_append, List.mem_cons] at member
  rcases member with first | rfl | second | rfl | third | rfl | last
  · exact decimal_plain _ c first
  · exact dot
  · exact decimal_plain _ c second
  · exact dot
  · exact decimal_plain _ c third
  · exact dot
  · exact decimal_plain _ c last

theorem ipv6Text_plain (address : Nat) : ∀ c ∈ ipv6Text address, isWhitespace c = false := by
  intro c member
  unfold ipv6Text at member
  split at member
  · rcases List.mem_append.mp member with start | low
    · have plain : ∀ c ∈ [':', ':', 'f', 'f', 'f', 'f', ':'], isWhitespace c = false := by decide
      exact plain c start
    · exact ipv4Text_plain _ c low
  · simp only at member
    split at member
    · rcases List.mem_append.mp member with start | after
      · rcases List.mem_append.mp start with before | colons
        · exact groupsText_plain _ c before
        · have plain : ∀ c ∈ [':', ':'], isWhitespace c = false := by decide
          exact plain c colons
      · exact groupsText_plain _ c after
    · exact groupsText_plain _ c member

theorem addressText_plain (a : IpAddr) : ∀ c ∈ (addressText a).toList, isWhitespace c = false := by
  cases a with
  | v4 address =>
    rw [addressText, String.toList_ofList]
    exact ipv4Text_plain _
  | v6 address =>
    rw [addressText, String.toList_ofList]
    exact ipv6Text_plain _

end Texts

/-! What a text of an address is parsed as, alone and with a number after it. -/

section Parsed
variable {rest : List Char}

theorem ipv6Text_no_ipv4 (address : Nat) (ended : Ended rest) :
    readIpv4Addr (ipv6Text address ++ rest) = none := by
  by_cases mapped : address / 2 ^ 32 = 0xffff
  · rw [ipv6Text, if_pos mapped]
    exact no_ipv4_at_colon _
  · by_cases zeros : 1 < (leftOut address).2
    · rw [shortened_text mapped zeros]
      exact groups_no_ipv4 (ended_cons _) _
    · have text : ipv6Text address = groupsText (segments address) := by
        rw [leftOut] at zeros
        rw [ipv6Text, if_neg mapped]
        simp only [zeros, if_false]
      rw [text]
      exact groups_no_ipv4 ended _

/-- An address is parsed from the text it is displayed as. -/
theorem parse_text (a : IpAddr) : parseIpAddr (addressText a) = some a := by
  cases a with
  | v4 address =>
    have read := readIpv4Addr_text address.isLt (ended_nil.no_digit 10)
    rw [List.append_nil] at read
    rw [addressText, parseIpAddr, String.toList_ofList, read]
    simp
  | v6 address =>
    have no_ipv4 := ipv6Text_no_ipv4 address.val ended_nil
    rw [List.append_nil] at no_ipv4
    rw [addressText, parseIpAddr, String.toList_ofList, no_ipv4, readIpv6Addr_text address.isLt]
    simp

/- The text of an address can be read on. -/
def ReadsOn : IpAddr → Prop
  | .v4 _ => False
  | .v6 address => Continues address.val

instance : DecidablePred ReadsOn := fun a =>
  match a with
  | .v4 _ => inferInstanceAs (Decidable False)
  | .v6 address => inferInstanceAs (Decidable (Continues address.val))

/-- With a number after it, the text of an address is one of another address just when it can be
    read on and the number has at most four digits. -/
theorem parse_number (a : IpAddr) (d : Nat) :
    (parseIpAddr (String.ofList ((addressText a).toList ++ ':' :: Nat.toDigits 10 d))).isSome = true ↔
      ReadsOn a ∧ d < 10 ^ 4 := by
  have ended := ended_cons (Nat.toDigits 10 d)
  cases a with
  | v4 address =>
    have read := readIpv4Addr_text address.isLt (ended.no_digit 10)
    rw [addressText, String.toList_ofList, parseIpAddr, String.toList_ofList, read]
    simp [ReadsOn]
  | v6 address =>
    rw [addressText, String.toList_ofList, parseIpAddr, String.toList_ofList,
      ipv6Text_no_ipv4 address.val ended, ReadsOn, ← readIpv6Addr_number address.isLt d]
    cases read : readIpv6Addr (ipv6Text address.val ++ ':' :: Nat.toDigits 10 d) with
    | none => simp
    | some found =>
      obtain ⟨value, left⟩ := found
      by_cases whole : left = []
      · simp [whole]
      · simp [whole]

end Parsed

/-! The targets. -/

/- A target and what is asked of it, with a colon between them. -/
def targetWith (target : String) (n : Nat) : String := target ++ ":" ++ n.repr

theorem targetWith_eq (target : String) (n : Nat) :
    targetWith target n = String.ofList (target.toList ++ ':' :: Nat.toDigits 10 n) := by
  rw [← String.toList_inj, targetWith, String.toList_ofList, String.toList_append,
    String.toList_append, Nat.toList_repr, List.append_assoc]
  rfl

theorem trim_address (a : IpAddr) : trim (addressText a) = addressText a := by
  have plain := trim_unchanged (addressText_plain a)
  rwa [String.ofList_toList] at plain

theorem trim_targetWith (a : IpAddr) (n : Nat) :
    trim (targetWith (addressText a) n) = targetWith (addressText a) n := by
  rw [targetWith_eq]
  refine trim_unchanged fun c member => ?_
  rcases List.mem_append.mp member with before | after
  · exact addressText_plain a c before
  · rcases List.mem_cons.mp after with rfl | digit
    · decide
    · exact decimal_plain n c digit

theorem block_address (a : IpAddr) :
    blockTarget (addressText a) = [.blockIp (addressText a) defaultBlockSecs] := by
  simp [blockTarget, trim_address, parse_text]

theorem blockDuration_repr (d : UInt64) : blockDuration d.toNat.repr = d.toNat := by
  have plain : trim d.toNat.repr = d.toNat.repr := by
    have unchanged := trim_unchanged (decimal_plain d.toNat)
    rwa [← Nat.toList_repr, String.ofList_toList] at unchanged
  rw [blockDuration, durationOr, plain, parseUnsigned_repr d.toNat_lt]
  rfl

/-- An address and a duration are taken apart just when together they are not an address. -/
theorem block_duration (a : IpAddr) (d : UInt64) :
    blockTarget (targetWith (addressText a) d.toNat) = [.blockIp (addressText a) d.toNat] ↔
      ¬ (ReadsOn a ∧ d.toNat ≤ 9999) := by
  have no_colon : ':' ∉ Nat.toDigits 10 d.toNat := fun member =>
    absurd (Nat.isDigit_of_mem_toDigits (by omega) (by omega) member) (by decide)
  have parsed := parse_number a d.toNat
  rw [← targetWith_eq] at parsed
  rw [blockTarget, trim_targetWith]
  cases read : parseIpAddr (targetWith (addressText a) d.toNat) with
  | some other =>
    rw [read] at parsed
    obtain ⟨reads_on, few⟩ := parsed.mp rfl
    have longer : targetWith (addressText a) d.toNat ≠ addressText a := by
      intro same
      have lengths := congrArg (fun s => s.toList.length) same
      simp [targetWith_eq] at lengths
    simp only [read, Option.isSome_some, if_true, Option.map_none, Option.getD_none]
    constructor
    · intro blocked
      exact absurd (ResolvedAction.blockIp.inj (List.singleton_inj.mp blocked)).1 longer
    · intro apart
      exact absurd ⟨reads_on, by omega⟩ apart
  | none =>
    rw [read] at parsed
    have apart : ¬ (ReadsOn a ∧ d.toNat ≤ 9999) := by
      rintro ⟨reads_on, few⟩
      exact absurd (parsed.mpr ⟨reads_on, by omega⟩) (by decide)
    have cut : splitLast ':' (targetWith (addressText a) d.toNat) =
        some (addressText a, d.toNat.repr) := by
      rw [targetWith_eq, splitLast_text no_colon, String.ofList_toList, ← Nat.toList_repr,
        String.ofList_toList]
    simp only [cut, parse_text, Option.isSome_some, if_true, Option.map_some, Option.getD_some,
      blockDuration_repr]
    exact ⟨fun _ => apart, fun _ => trivial⟩

/-- A process is named with its identifier just when its name has no colon. -/
theorem kill_process (name : String) (pid : UInt32) :
    killTarget (targetWith name pid.toNat) = [.killProcess name pid] ↔ ':' ∉ name.toList := by
  rw [targetWith_eq]
  by_cases colon : ':' ∈ name.toList
  · obtain ⟨before, after, name_eq, free⟩ := List.eq_append_cons_of_mem colon
    have inside : ':' ∈ (String.ofList (after ++ ':' :: Nat.toDigits 10 pid.toNat)).toList := by simp
    have no_pid : parseUnsigned 32 (String.ofList (after ++ ':' :: Nat.toDigits 10 pid.toNat)) = none :=
      parseUnsigned_none inside (by decide) (by decide)
    have killed_none : killTarget (String.ofList (before ++ ':' :: (after ++
        ':' :: Nat.toDigits 10 pid.toNat))) = [] := by
      rw [killTarget, splitn_two free]
      simp only [no_pid]
    rw [name_eq, List.append_assoc, List.cons_append, killed_none]
    simp
  · have pid_read : parseUnsigned 32 (String.ofList (Nat.toDigits 10 pid.toNat)) = some pid.toNat := by
      rw [← Nat.toList_repr, String.ofList_toList, parseUnsigned_repr pid.toNat_lt]
    rw [killTarget, splitn_two colon]
    simp [pid_read, colon]

/-- Of the targets an operator gives: the bare address is blocked for the default time, an address
    with a duration for that time just when its text cannot be read on or the duration has five
    digits, and a process is killed just when its name has no colon. -/
theorem manual_targets_iff (playbook : Playbook) :
    (∀ a : IpAddr, resolveManualActions { playbook with actions := [⟨.blockIp, addressText a⟩] } =
        [.resolved (.blockIp (addressText a) defaultBlockSecs)] ∧
      parseIpAddr (addressText a) = some a) ∧
    (∀ (a : IpAddr) (d : UInt64),
      resolveManualActions
          { playbook with actions := [⟨.blockIp, targetWith (addressText a) d.toNat⟩] } =
        [.resolved (.blockIp (addressText a) d.toNat)] ↔ ¬ (ReadsOn a ∧ d.toNat ≤ 9999)) ∧
    ∀ (name : String) (pid : UInt32),
      resolveManualActions { playbook with actions := [⟨.killProcess, targetWith name pid.toNat⟩] } =
        [.resolved (.killProcess name pid)] ↔ ':' ∉ name.toList := by
  have one (target : List ResolvedAction) (action : ResolvedAction) :
      target.map ManualAction.resolved ++ [] = [.resolved action] ↔ target = [action] := by
    rw [List.append_nil, List.map_eq_singleton_iff]
    constructor
    · rintro ⟨found, rfl, same⟩
      rw [ManualAction.resolved.inj same]
    · rintro rfl
      exact ⟨action, rfl, rfl⟩
  refine ⟨fun a => ⟨?_, parse_text a⟩, fun a d => ?_, fun name pid => ?_⟩
  · exact (one _ _).mpr (block_address a)
  · exact (one _ _).trans (block_duration a d)
  · exact (one _ _).trans (kill_process name pid)

/- fe80::1 -/
def linkLocal : IpAddr := .v6 ⟨0xfe80 * 2 ^ 112 + 1, by decide⟩

def byHand (target : PlaybookAction) : Playbook := ⟨"p1", "by hand", true, [], [target]⟩

/-- A block of fe80::1 for an hour is one of fe80::1:3600, and a process whose name has a colon is
    not killed. -/
theorem targets_misread :
    resolveManualActions (byHand ⟨.blockIp, targetWith (addressText linkLocal) 3600⟩) =
        [.resolved (.blockIp "fe80::1:3600" 3600)] ∧
      resolveManualActions (byHand ⟨.killProcess, targetWith "irq:worker" 4242⟩) = [] := by
  decide

end SentinelAgent.Response
