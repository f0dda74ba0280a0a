import Mathlib.Order.Defs.LinearOrder
import SentinelAgent.Library.Lines
import SentinelAgent.Library.Text

/-!
The update of the agent: the manifest that is signed for a release, and the checks between the
announcement of a version and the installer.
-/
namespace SentinelAgent.Update
open Text

abbrev Bytes := List UInt8

structure UpdateManifest where
  version : String
  package : String
  sha256 : String
  size : Nat
  deriving DecidableEq

def hexDigit (c : Char) : Bool :=
  c.isDigit || ('a' ≤ c && c ≤ 'f') || ('A' ≤ c && c ≤ 'F')

def signedHeader : String := "sentinel-update-manifest-v1\n"

/- The text whose bytes the signature covers. -/
def UpdateManifest.signedMessage (m : UpdateManifest) : String :=
  signedHeader ++ m.version ++ "\n" ++ m.package ++ "\n" ++ toAsciiLowercase m.sha256 ++ "\n" ++
    m.size.repr ++ "\n"

/- The machine and the libraries: the order of versions, how a manifest is read, and the
   signatures and digests. -/
structure Outside (Version : Type) where
  linux : Bool
  admin : Bool
  folder : String
  packageDetails : Except String (String × String)
  releasesBaseUrl : String
  parseVersion : String → Except String Version
  readManifest : String → Except String UpdateManifest
  escapeDebug : String → String
  decodeHex : String → Except String Bytes
  verifies : Bytes → String → Bytes → Bool
  sha256 : Bytes → String
  publicKeyHex : Option String

structure UpdateInfo where
  version : String

structure Server where
  releaseInfo : Except String UpdateInfo
  fetchText : String → Except String String
  download : String → Except String Bytes

def versionChar (c : Char) : Bool := c.isAlphanum || c == '.' || c == '-' || c == '+'

def packageChar (c : Char) : Bool := c.isAlphanum || c == '.' || c == '-' || c == '_'

def check (condition : Bool) (error : String) : Except String Unit :=
  if condition then .ok () else .error error

section Manager
variable {Version : Type} [LinearOrder Version] (o : Outside Version) (server : Server)

def UpdateManifest.validate (m : UpdateManifest) : Except String Unit := do
  check (m.version ≠ "" && m.version.toList.all versionChar)
    ("unusable version '" ++ o.escapeDebug m.version ++ "'")
  check (m.package ≠ "" && !startsWith m.package '.' && m.package.toList.all packageChar)
    ("unusable package name '" ++ o.escapeDebug m.package ++ "'")
  check (m.sha256.length = 64 && m.sha256.toList.all hexDigit)
    "SHA-256 is not 64 hexadecimal characters"
  check (m.size ≠ 0) "package size is zero"

def embeddedUpdatePublicKey : Except String (Option Bytes) :=
  match o.publicKeyHex.map trim with
  | none | some "" => .ok none
  | some hexKey => do
    let bytes ← (o.decodeHex hexKey).mapError ("Embedded update public key is not valid hex: " ++ ·)
    check (bytes.length = 32) ("Embedded update public key must be 32 bytes (ed25519), got " ++
      bytes.length.repr)
    return some bytes

def verifyEd25519Signature (publicKey : Bytes) (message signatureText : String) :
    Except String Unit := do
  let signature ← (o.decodeHex ((words signatureText).headD "")).mapError
    ("Signature is not valid hex: " ++ ·)
  check (signature.length = 64) ("Signature must be 64 bytes (ed25519), got " ++
    signature.length.repr)
  check (o.verifies publicKey message signature) "Update package signature verification failed"

def sameVersion (first second : String) : Bool :=
  match o.parseVersion first, o.parseVersion second with
  | .ok signed, .ok announced => signed = announced
  | _, _ => false

def verifyManifest (publicKey : Bytes) (manifestJson signatureText announcedVersion packageName
    packageSha256 : String) (packageSize : Nat) : Except String UpdateManifest := do
  let manifest ← (o.readManifest manifestJson).mapError ("Update manifest is unreadable: " ++ ·)
  (manifest.validate o).mapError ("Update manifest refused: " ++ ·)
  verifyEd25519Signature o publicKey manifest.signedMessage signatureText
  check (sameVersion o manifest.version announcedVersion)
    ("Update refused: the release server announces version " ++ announcedVersion ++
      " but the signed manifest is for version " ++ manifest.version)
  check (manifest.package = packageName) ("Update refused: the signed manifest is for '" ++
    manifest.package ++ "', not '" ++ packageName ++ "'")
  check (eqIgnoreAsciiCase manifest.sha256 packageSha256 && manifest.size = packageSize)
    "Update refused: the downloaded package is not the one the manifest was signed for"
  return manifest

def verifySignature (file : Bytes) (packageName version : String) : Except String Unit := do
  match ← embeddedUpdatePublicKey o with
  | none => return ()
  | some publicKey =>
    let url := o.releasesBaseUrl ++ "/" ++ o.folder ++ "/" ++ packageName ++ ".manifest.json"
    let unavailable (what error : String) :=
      "This build requires signed updates but the " ++ what ++ " could not be fetched: " ++ error
    let manifestJson ← (server.fetchText url).mapError (unavailable "release manifest")
    let signatureText ← (server.fetchText (url ++ ".sig")).mapError
      (unavailable "manifest signature")
    let _ ← verifyManifest o publicKey manifestJson signatureText version packageName
      (o.sha256 file) file.length

def verifyChecksum (file : Bytes) (expected : String) : Except String Unit := do
  let expectedHash := toAsciiLowercase ((words expected).headD expected)
  check (expectedHash.length = 64 && expectedHash.toList.all hexDigit)
    "Invalid SHA-256 checksum format"
  check (o.sha256 file = expectedHash) "Package checksum verification failed"

def checkForUpdate (currentVersion : String) : Except String (Option UpdateInfo) := do
  let latestInfo ← server.releaseInfo
  let current ← (o.parseVersion currentVersion).mapError
    ("Invalid current version '" ++ currentVersion ++ "': " ++ ·)
  let latest ← (o.parseVersion latestInfo.version).mapError
    ("Invalid latest version '" ++ latestInfo.version ++ "' from server: " ++ ·)
  return if current < latest then some latestInfo else none

/- The update up to the installer: what it is started on. -/
def performUpdate (info : UpdateInfo) : Except String Bytes := do
  check (!o.linux || o.admin) ("Version " ++ info.version ++ " is available, but installing it " ++
    "requires root: update the sentinel-agent package with your package manager")
  let (packageName, checksumFile) ← o.packageDetails
  let url := o.releasesBaseUrl ++ "/" ++ o.folder ++ "/"
  let expectedChecksum ← server.fetchText (url ++ checksumFile)
  let file ← server.download (url ++ packageName)
  verifyChecksum o file expectedChecksum
  verifySignature o server file packageName info.version
  return file

end Manager

/-! What a check that passes says. -/

section Passed
variable {Version : Type} [LinearOrder Version] {o : Outside Version} {server : Server}
  {m m' : UpdateManifest}

theorem then_ok {A B : Type} {x : Except String A} {f : A → Except String B} {b : B}
    (done : x >>= f = .ok b) : ∃ a, x = .ok a ∧ f a = .ok b := by
  cases x with
  | error e => cases done
  | ok a => exact ⟨a, rfl, done⟩

theorem check_ok {condition : Bool} {error : String} {u : Unit}
    (passed : check condition error = .ok u) : condition = true := by
  cases condition with
  | true => rfl
  | false => cases passed

theorem mapError_ok {A : Type} {x : Except String A} {f : String → String} {a : A}
    (passed : x.mapError f = .ok a) : x = .ok a := by
  cases x with
  | error e => cases passed
  | ok b => exact passed

/- The fields of a manifest that passes its check have no line break. -/
theorem validate_free (valid : m.validate o = .ok ()) : '\n' ∉ m.version.toList ∧
    '\n' ∉ m.package.toList ∧ '\n' ∉ (toAsciiLowercase m.sha256).toList := by
  obtain ⟨_, version, valid⟩ := then_ok valid
  obtain ⟨_, package, valid⟩ := then_ok valid
  obtain ⟨_, sha256, -⟩ := then_ok valid
  have version := check_ok version
  have package := check_ok package
  have sha256 := check_ok sha256
  simp only [Bool.and_eq_true, List.all_eq_true] at version package sha256
  refine ⟨fun member => ?_, fun member => ?_, fun member => ?_⟩
  · exact absurd (version.2 _ member) (by decide)
  · exact absurd (package.2 _ member) (by decide)
  · rw [toAsciiLowercase, String.toList_ofList] at member
    obtain ⟨c, there, lower⟩ := List.mem_map.mp member
    unfold Char.toLower at lower
    split at lower
    · rename_i capital
      have small : c.val.toNat ≤ 90 := UInt32.le_iff_toNat_le.mp capital.2
      have code := congrArg (fun c : Char => c.val.toNat) lower
      simp only [UInt32.toNat_add] at code
      have shift : ('a'.val - 'A'.val).toNat = 32 := by decide
      have feed : ('\n').val.toNat = 10 := by decide
      omega
    · subst lower
      exact absurd (sha256.2 _ there) (by decide)

theorem signedMessage_injective (valid : m.validate o = .ok ()) (valid' : m'.validate o = .ok ())
    (same : m.signedMessage = m'.signedMessage) : m.version = m'.version ∧
      m.package = m'.package ∧ toAsciiLowercase m.sha256 = toAsciiLowercase m'.sha256 ∧
      m.size = m'.size := by
  obtain ⟨version, package, sha256⟩ := validate_free valid
  obtain ⟨version', package', sha256'⟩ := validate_free valid'
  have size (n : Nat) : '\n' ∉ n.repr.toList := fun member =>
    absurd (repr_digits n _ member) (by decide)
  have texts := congrArg String.toList same
  simp only [UpdateManifest.signedMessage, String.toList_append, List.append_assoc,
    List.append_cancel_left_eq] at texts
  obtain ⟨versions, texts⟩ := Lines.cut_first version version' texts
  obtain ⟨packages, texts⟩ := Lines.cut_first package package' texts
  obtain ⟨digests, texts⟩ := Lines.cut_first sha256 sha256' texts
  obtain ⟨sizes, -⟩ := Lines.cut_first (size _) (size _) texts
  exact ⟨String.toList_injective versions, String.toList_injective packages,
    String.toList_injective digests, repr_injective (String.toList_injective sizes)⟩

/- A release that was signed as the one announced, for this package and for these bytes. -/
structure SignedAs (o : Outside Version) (m : UpdateManifest) (version packageName : String)
    (file : Bytes) : Prop where
  version : ∃ signed, o.parseVersion m.version = .ok signed ∧ o.parseVersion version = .ok signed
  package : m.package = packageName
  sha256 : toAsciiLowercase m.sha256 = toAsciiLowercase (o.sha256 file)
  size : m.size = file.length

section Signed
variable {publicKey : Bytes} {released : UpdateManifest → Prop}
  (described : ∀ m, released m → m.validate o = .ok ())
  (unforgeable : ∀ message signature, o.verifies publicKey message signature = true →
    ∃ m, released m ∧ message = m.signedMessage)
include described unforgeable

theorem verified_is_signed {manifestJson signatureText version packageName : String}
    {file : Bytes} (passes : verifyManifest o publicKey manifestJson signatureText version
      packageName (o.sha256 file) file.length = .ok m) :
    ∃ m, released m ∧ SignedAs o m version packageName file := by
  obtain ⟨manifest, -, passes⟩ := then_ok passes
  obtain ⟨_, valid, passes⟩ := then_ok passes
  obtain ⟨_, signature, passes⟩ := then_ok passes
  obtain ⟨_, same, passes⟩ := then_ok passes
  obtain ⟨_, named, passes⟩ := then_ok passes
  obtain ⟨_, exact_bytes, -⟩ := then_ok passes
  obtain ⟨_, -, signature⟩ := then_ok signature
  obtain ⟨_, -, signature⟩ := then_ok signature
  obtain ⟨released_m, member, message⟩ := unforgeable _ _ (check_ok signature)
  obtain ⟨versions, packages, digests, sizes⟩ :=
    signedMessage_injective (mapError_ok valid) (described _ member) message
  have same := check_ok same
  have exact_bytes := check_ok exact_bytes
  simp only [eqIgnoreAsciiCase, Bool.and_eq_true, beq_iff_eq, decide_eq_true_eq] at exact_bytes
  refine ⟨released_m, member, ?_, ?_, digests.symm.trans exact_bytes.1,
    sizes.symm.trans exact_bytes.2⟩
  · unfold sameVersion at same
    split at same
    · rename_i signed announced read read'
      rw [versions] at read
      exact ⟨signed, read, (of_decide_eq_true same) ▸ read'⟩
    · cases same
  · exact packages.symm.trans (of_decide_eq_true (check_ok named))

end Signed
end Passed

/-! One release, signed with the key of the build. -/

def zeros (count : Nat) : String := String.ofList (List.replicate count '0')

def release : UpdateManifest :=
  ⟨"4.0.44", "agent.pkg", "ca978112ca1bbdcafac231b39a23dc4da786eff8147c4e72b9807785afee48bb", 1⟩

def macHost : Outside Nat where
  linux := false
  admin := false
  folder := "macos"
  packageDetails := .ok ("agent.pkg", "agent.pkg.sha256")
  releasesBaseUrl := "https://releases"
  parseVersion text := match text with
    | "4.0.43" => .ok 43
    | "4.0.44" => .ok 44
    | _ => .error "unexpected end of input"
  readManifest _ := .ok release
  escapeDebug := id
  decodeHex text := .ok (List.replicate (text.length / 2) 0)
  verifies _ message _ := message == release.signedMessage
  sha256 _ := release.sha256
  publicKeyHex := some (zeros 64)

def releaseServer : Server where
  releaseInfo := .ok ⟨"4.0.44"⟩
  fetchText url := .ok (if url = "https://releases/macos/agent.pkg.sha256" then release.sha256
    else zeros 128)
  download _ := .ok [97]

end SentinelAgent.Update
