import SentinelAgent.Scanner.DpkgOrder
import SentinelAgent.Scanner.LinuxPackages

/-!
RPM's order of versions, and the kernels that are kept of the output of `rpm -qa`: of each kernel
package of each architecture the first of the newest in Debian's order.
-/
namespace SentinelAgent.Rpm
open DebianVersion Greatest Keyed Padded Std Text Vulnerability
open Dpkg (valueFrom)

section Order

/- What a version is read as: separators only part the segments. -/
inductive Segment where
  | tilde
  | caret
  | letters (chars : List Nat)
  | number (value : Nat)
  -- where there are no more
  | ended

/- `~` is older than the end, and what is more is newer than it; a number is newer than letters. -/
def Segment.rank : Segment → Nat
  | .tilde => 0
  | .ended => 1
  | .caret => 2
  | .letters _ => 3
  | .number _ => 4

def Segment.value : Segment → Nat
  | .number value => value
  | _ => 0

def Segment.chars : Segment → List Nat
  | .letters chars => chars
  | _ => []

def together (x y : Nat) : Bool := isDigit x && isDigit y || isAlphabetic x && isAlphabetic y

def segmentOf : List Nat → Option Segment
  | [] => none
  | b :: run =>
    if b = 126 then some .tilde
    else if b = 94 then some .caret
    else if isDigit b then some (.number (valueFrom 0 (b :: run)))
    else if isAlphabetic b then some (.letters (b :: run))
    else none

def segments (text : String) : List Segment := ((bytes text).splitBy together).filterMap segmentOf

def compareSegment : Segment → Segment → Ordering :=
  compareLex (compareOn Segment.rank)
    (compareLex (compareOn Segment.value) fun s t => List.compareLex compare s.chars t.chars)

def rpmvercmp (a b : String) : Ordering :=
  padded compareSegment .ended (segments a) (segments b)

structure RpmVersion where
  epoch : Nat
  version : String
  release : String

def compareRpm : RpmVersion → RpmVersion → Ordering :=
  compareLex (compareOn RpmVersion.epoch)
    (compareLex (fun a b => rpmvercmp a.version b.version) fun a b => rpmvercmp a.release b.release)

instance : TransCmp compareSegment :=
  have : TransCmp fun s t : Segment => List.compareLex compare s.chars t.chars :=
    transCmp_on Segment.chars
  inferInstanceAs (TransCmp (compareLex _ (compareLex _ _)))

instance : TransCmp rpmvercmp := transCmp_on segments

/-- RPM's order is total and transitive. -/
instance : TransCmp compareRpm :=
  have : TransCmp fun a b : RpmVersion => rpmvercmp a.version b.version := transCmp_on _
  have : TransCmp fun a b : RpmVersion => rpmvercmp a.release b.release := transCmp_on _
  inferInstanceAs (TransCmp (compareLex _ (compareLex _ _)))

example : rpmvercmp "5.14.0" "5.14" = .gt ∧ rpmvercmp "1.0~rc1" "1.0" = .lt ∧
    rpmvercmp "427.13.1.el9_4" "70.13.1.el9_0" = .gt ∧ rpmvercmp "1.0" "1_0" = .eq := by decide

end Order

section Kernels
variable (ecosystem : Option RpmEcosystem)

/- A line of the output: what is installed, and the package it is listed as. -/
structure RpmEntry where
  installed : RpmVersion
  package : InstalledPackage

def rpmEntry (line : String) : Option RpmEntry :=
  match split '\t' line with
  | [_, epoch, version, release, _, _, _] =>
    let installed : RpmVersion := ⟨(parseUnsigned 64 (trim epoch)).getD 0, version, release⟩
    (parseRpmLine ecosystem line).map fun package => ⟨installed, package⟩
  | _ => none

def entriesOf (output : String) : List RpmEntry := (lines output).filterMap (rpmEntry ecosystem)

def packagesOf (entries : List RpmEntry) : List InstalledPackage := entries.map RpmEntry.package

/- None of the package's name is newer. -/
def Newest (entries : List RpmEntry) (entry : RpmEntry) : Prop :=
  ∀ other ∈ entries, other.package.name = entry.package.name →
    (compareRpm other.installed entry.installed).isLE = true

/- Of the packages of which several versions stay installed side by side exactly the newest of
   each name are kept, and all others are. -/
def KeepsNewest (output : String) : Prop :=
  let entries := entriesOf ecosystem output
  let kept := parseRpmQueryOutput output ecosystem
  kept.filter (!isInstallOnly ·.name) = (packagesOf entries).filter (!isInstallOnly ·.name) ∧
    ∀ package, isInstallOnly package.name = true →
      (package ∈ kept ↔ ∃ entry ∈ entries, entry.package = package ∧ Newest entries entry)

/- No package of the name and architecture is above it in Debian's order, and those before it are
   below it. -/
def FirstInDebianOrder (packages : List InstalledPackage) (package : InstalledPackage) : Prop :=
  ∃ before after, packages.filter (kernelOf · = kernelOf package) = before ++ package :: after ∧
    (∀ other ∈ before, compareDebianVersions other.version package.version = .lt) ∧
    ∀ other ∈ after, (compareDebianVersions other.version package.version).isLE = true

/- Every architecture of a kernel package has one of the newest of the name, and each of these
   comes first in Debian's order. -/
def OrdersAgree (entries : List RpmEntry) : Prop :=
  ∀ entry ∈ entries, isInstallOnly entry.package.name = true →
    (∃ newest ∈ entries, kernelOf newest.package = kernelOf entry.package ∧
      Newest entries newest) ∧
    (Newest entries entry → FirstInDebianOrder (packagesOf entries) entry.package)

variable {ecosystem}

theorem packages_of_output (output : String) : packagesOf (entriesOf ecosystem output) =
    (lines output).filterMap (parseRpmLine ecosystem) := by
  rw [packagesOf, entriesOf, List.map_filterMap]
  refine List.filterMap_congr fun line _ => ?_
  unfold rpmEntry
  split
  · rw [Option.map_map]
    exact Option.map_id' ..
  · rename_i not_seven
    unfold parseRpmLine
    split
    · rename_i whole
      exact absurd whole (not_seven _ _ _ _ _ _ _)
    · rfl

theorem kernelOf_none {package : InstalledPackage} :
    kernelOf package = none ↔ isInstallOnly package.name = false := by
  unfold kernelOf
  split <;> simp_all

theorem kernelOf_some {package : InstalledPackage} (kernel : isInstallOnly package.name = true) :
    kernelOf package = some (package.name, package.arch) := if_pos kernel

def compareInstalled (p q : InstalledPackage) : Ordering :=
  compareDebianVersions p.version q.version

instance : TransCmp compareInstalled := transCmp_on InstalledPackage.version

theorem kept_iff_greatest {output : String} {package : InstalledPackage}
    (kernel : isInstallOnly package.name = true) :
    package ∈ parseRpmQueryOutput output ecosystem ↔ greatest compareInstalled
      ((packagesOf (entriesOf ecosystem output)).filter (kernelOf · = kernelOf package)) =
        some package := by
  have keyed := kernelOf_some kernel
  have only := @kept_of_key _ _ _ kernelOf compareInstalled
    ((lines output).filterMap (parseRpmLine ecosystem)) (package.name, package.arch)
  rw [keyed, packages_of_output, ← Option.mem_toList, ← only, List.mem_filter]
  simp only [keyed, decide_true, and_true]
  rfl

theorem kept_iff_first {output : String} {package : InstalledPackage}
    (kernel : isInstallOnly package.name = true) :
    package ∈ parseRpmQueryOutput output ecosystem ↔
      FirstInDebianOrder (packagesOf (entriesOf ecosystem output)) package := by
  rw [kept_iff_greatest kernel, greatest_eq_some]
  rfl

theorem others_kept (output : String) :
    (parseRpmQueryOutput output ecosystem).filter (!isInstallOnly ·.name) =
      (packagesOf (entriesOf ecosystem output)).filter (!isInstallOnly ·.name) := by
  have same : ∀ package : InstalledPackage, (!isInstallOnly package.name) =
      decide (kernelOf package = none) := by
    intro package
    rw [Bool.eq_iff_iff]
    simp [kernelOf_none]
  simp only [same, packages_of_output]
  exact kept_without_key newerPackage _

theorem mem_packagesOf {entries : List RpmEntry} {entry : RpmEntry} (member : entry ∈ entries) :
    entry.package ∈ (packagesOf entries).filter (kernelOf · = kernelOf entry.package) := by
  have listed : entry.package ∈ packagesOf entries := List.mem_map_of_mem member
  simpa using listed

/-- Exactly the newest kernels in RPM's order are kept of an output where Debian's order puts
    them first. -/
theorem keeps_newest_iff (ecosystem : Option RpmEcosystem) (output : String) :
    KeepsNewest ecosystem output ↔ OrdersAgree (entriesOf ecosystem output) := by
  constructor
  · rintro ⟨-, newest_kept⟩ entry member kernel
    constructor
    · -- one package of the name and architecture is kept, so it is one of the newest
      obtain ⟨package, first, of_key, -⟩ := @exists_greatest _ compareInstalled _ _
        (List.ne_nil_of_mem (mem_packagesOf member))
      have same : kernelOf package = kernelOf entry.package := by
        simpa using (List.mem_filter.mp of_key).2
      have kernel' : isInstallOnly package.name = true := by
        by_contra other
        rw [kernelOf_none.mpr (by simpa using other), kernelOf_some kernel] at same
        cases same
      rw [← same] at first
      obtain ⟨newest, member', is_package, newest_of⟩ :=
        (newest_kept package kernel').mp ((kept_iff_greatest kernel').mpr first)
      exact ⟨newest, member', is_package ▸ same, newest_of⟩
    · intro newest
      exact (kept_iff_first kernel).mp ((newest_kept _ kernel).mpr ⟨entry, member, rfl, newest⟩)
  · intro agree
    refine ⟨others_kept output, fun package kernel => ⟨fun kept => ?_, ?_⟩⟩
    · have first := (kept_iff_greatest kernel).mp kept
      have listed := (List.mem_filter.mp (greatest_mem first)).1
      obtain ⟨entry, member, rfl⟩ := List.mem_map.mp listed
      obtain ⟨newest, member', same, newest_of⟩ := (agree entry member kernel).1
      have kernel' : isInstallOnly newest.package.name = true := by
        by_contra other
        rw [kernelOf_none.mpr (by simpa using other), kernelOf_some kernel] at same
        cases same
      have kept' := (kept_iff_first kernel').mpr ((agree newest member' kernel').2 newest_of)
      rw [kept_iff_greatest kernel', same, first] at kept'
      exact ⟨newest, member', (Option.some.inj kept').symm, newest_of⟩
    · rintro ⟨entry, member, rfl, newest⟩
      exact (kept_iff_first kernel).mpr ((agree entry member kernel).2 newest)

/- A kernel and its update, whose release has a number where that of the kernel goes on with
   the distribution. -/
def kernelAndUpdate : String :=
  "kernel-core\t0\t4.18.0\t240.el8\tx86_64\tkernel-4.18.0-240.el8.src.rpm\tAlmaLinux\n" ++
    "kernel-core\t0\t4.18.0\t240.1.1.el8_3\tx86_64\tkernel-4.18.0-240.1.1.el8_3.src.rpm\t(none)\n"

theorem kept_kernel : ∃ package ∈ parseRpmQueryOutput kernelAndUpdate none,
    isInstallOnly package.name = true ∧ package.version = "4.18.0-240.el8" := by decide +kernel

theorem kernel_older : ∀ entry ∈ entriesOf none kernelAndUpdate,
    entry.package.version = "4.18.0-240.el8" →
      ∃ other ∈ entriesOf none kernelAndUpdate, other.package.name = entry.package.name ∧
        compareRpm other.installed entry.installed = .gt := by decide +kernel

theorem update_dropped : rpmvercmp "240.1.1.el8_3" "240.el8" = .gt ∧
    (parseRpmQueryOutput kernelAndUpdate none).map (·.version) = ["4.18.0-240.el8"] ∧
    ¬ KeepsNewest none kernelAndUpdate := by
  refine ⟨by decide +kernel, by decide +kernel, fun keeps => ?_⟩
  obtain ⟨package, member, kernel, version⟩ := kept_kernel
  obtain ⟨entry, listed, is_package, newest⟩ := (keeps.2 package kernel).mp member
  obtain ⟨other, listed', same, newer⟩ := kernel_older entry listed (is_package ▸ version)
  have not_newer := newest other listed' same
  rw [newer] at not_newer
  cases not_newer

end Kernels

end SentinelAgent.Rpm
