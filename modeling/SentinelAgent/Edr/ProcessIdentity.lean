import SentinelAgent.Library.Text

/-!
Whether the process that runs under a PID is the one a detection named. The kernel cuts
names short, so one name may stand for the other; `toLowercase` is that of all of Unicode.
-/
namespace SentinelAgent.Edr
open Text

section Names
variable (toLowercase : String → String)

/- Case and a Windows `.exe` suffix do not tell processes apart. -/
def comparableName (name : String) : String :=
  let name := toLowercase (Text.trim name)
  (beforeEnd ".exe" name).getD name

/- The shortest length at which the kernel may have cut a name. -/
def truncatedNameChars : Nat := 15

/- The shorter name by its bytes, then the longer one. -/
def byLength (expected name : String) : String × String :=
  if name.utf8ByteSize ≤ expected.utf8ByteSize then (name, expected) else (expected, name)

def sameName (expected name : String) : Bool :=
  let (shorter, longer) := byLength expected name
  name == expected ||
    (decide (truncatedNameChars ≤ shorter.toList.length) && beginsWith shorter longer)

def namesSameProcess (expected : String) (actual : List String) : Bool :=
  let expected := comparableName toLowercase expected
  if expected = "" then false
  else (actual.map (comparableName toLowercase)).any (sameName expected)

/- `actual`: the names the system gives the process, if it runs. -/
def confirmProcessIdentity (processName : String) (pid : UInt32) (actual : Option (List String)) :
    Except String Unit :=
  if Text.trim processName = "" then
    .error s!"Cannot confirm what PID {pid} is: no process name was given"
  else
    match actual with
    | none => .error s!"Process '{processName}' (PID {pid}) is no longer running"
    | some actual =>
      if namesSameProcess toLowercase processName actual then .ok ()
      else
        let found := actual.head?.getD "unknown"
        .error (s!"PID {pid} is no longer '{processName}' (now '{found}'): the detected process " ++
          "has exited and its PID was reused, nothing was terminated")

end Names

/- A name begins the other, and is as long as a name the kernel may have cut. -/
def Begins (shorter longer : String) : Prop :=
  truncatedNameChars ≤ shorter.toList.length ∧ shorter.toList <+: longer.toList

/- The first characters of a name, so many. -/
def cut (chars : Nat) (name : String) : String := String.ofList (name.toList.take chars)

/- The kernel keeps 15 characters of a name, or 16. -/
def CutForm (short name : String) : Prop :=
  ∃ chars, (chars = 15 ∨ chars = 16) ∧ chars ≤ name.toList.length ∧ short = cut chars name

theorem begins_bytes {shorter longer : String} (begins : shorter.toList <+: longer.toList) :
    shorter.utf8ByteSize ≤ longer.utf8ByteSize := by
  obtain ⟨rest, whole⟩ := begins
  have joined : longer = shorter ++ String.ofList rest := by
    rw [← String.toList_inj, String.toList_append, String.toList_ofList, whole]
  rw [joined, String.utf8ByteSize_append]
  omega

theorem same_size_begins {shorter longer : String} (begins : shorter.toList <+: longer.toList)
    (size : longer.utf8ByteSize ≤ shorter.utf8ByteSize) : shorter = longer := by
  obtain ⟨rest, whole⟩ := begins
  have joined : longer = shorter ++ String.ofList rest := by
    rw [← String.toList_inj, String.toList_append, String.toList_ofList, whole]
  have nothing : (String.ofList rest).utf8ByteSize = 0 := by
    rw [joined, String.utf8ByteSize_append] at size
    omega
  rw [String.utf8ByteSize_eq_zero_iff] at nothing
  rw [joined, nothing, String.append_empty]

theorem sameName_iff (expected name : String) :
    sameName expected name = true ↔
      name = expected ∨ Begins name expected ∨ Begins expected name := by
  simp only [sameName, byLength, Begins, beginsWith, Bool.or_eq_true, beq_iff_eq]
  split
  · rename_i short
    simp only [Bool.and_eq_true, decide_eq_true_eq, List.isPrefixOf_iff_prefix]
    constructor
    · rintro (equal | begins)
      · exact Or.inl equal
      · exact Or.inr (Or.inl begins)
    · rintro (equal | begins | ⟨long, begins⟩)
      · exact Or.inl equal
      · exact Or.inr begins
      · exact Or.inl (same_size_begins begins short).symm
  · rename_i long
    simp only [Bool.and_eq_true, decide_eq_true_eq, List.isPrefixOf_iff_prefix]
    constructor
    · rintro (equal | begins)
      · exact Or.inl equal
      · exact Or.inr (Or.inr begins)
    · rintro (equal | ⟨_, begins⟩ | begins)
      · exact Or.inl equal
      · exact absurd (begins_bytes begins) long
      · exact Or.inr begins

theorem cut_begins {short name : String} (form : CutForm short name) : Begins short name := by
  obtain ⟨chars, kept, long, rfl⟩ := form
  simp only [Begins, truncatedNameChars, cut, String.toList_ofList, List.length_take]
  exact ⟨by omega, List.take_prefix chars name.toList⟩

section Confirmed
variable {toLowercase : String → String} {processName : String} {pid : UInt32}
  {actual : Option (List String)}

theorem confirmed_iff :
    confirmProcessIdentity toLowercase processName pid actual = .ok () ↔
      Text.trim processName ≠ "" ∧ comparableName toLowercase processName ≠ "" ∧
        ∃ names, actual = some names ∧ ∃ name ∈ names,
          sameName (comparableName toLowercase processName) (comparableName toLowercase name) =
            true := by
  unfold confirmProcessIdentity
  by_cases blank : Text.trim processName = ""
  · simp [blank]
  · rw [if_neg blank]
    cases actual with
    | none => simp
    | some names =>
      by_cases empty : comparableName toLowercase processName = ""
      · simp [namesSameProcess, empty]
      · simp [namesSameProcess, empty, blank]

end Confirmed

end SentinelAgent.Edr
