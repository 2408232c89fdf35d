/-
  Tundra.Descriptor

  Public-only descriptor import (`descriptor.rs`): the accepted input forms,
  the policy, the account identities, and the abbreviated label origins.
-/

import Tundra.Env
import Mathlib.Data.List.Sort

namespace Tundra
namespace Descriptors

open Checked

variable {State Wallet Scan : Type} (env : Env State Wallet Scan)

def maxDescriptorBytes : Nat := 32768

/-! ## Text helpers -/

/-- `str::split_once` at a character. -/
def splitOnce (c : Char) : List Char → Option (List Char × List Char)
  | [] => none
  | x :: xs =>
      if x = c then some ([], xs) else (splitOnce c xs).map (fun r => (x :: r.1, r.2))

/-- `str::strip_prefix`. -/
def stripPrefix (pattern : String) (s : List Char) : Option (List Char) :=
  if pattern.toList.isPrefixOf s then some (s.drop pattern.length) else none

/-- `str::strip_suffix`. -/
def stripSuffix (pattern : String) (s : List Char) : Option (List Char) :=
  if pattern.toList.isSuffixOf s then some (s.take (s.length - pattern.length)) else none

/-- The parts of a text between the places where a pattern stands, as
    `str::matches` and `str::replace` find them.  `skip` counts what is left of
    the last place. -/
def splitFrom (pattern : List Char) : Nat → List Char → List (List Char)
  | _, [] => [[]]
  | skip + 1, _ :: s => splitFrom pattern skip s
  | 0, c :: s =>
      if pattern.isPrefixOf (c :: s) then [] :: splitFrom pattern (pattern.length - 1) s
      else
        match splitFrom pattern 0 s with
        | part :: parts => (c :: part) :: parts
        | [] => [[c]]

/-- Strings in byte order. -/
def sortStrings (l : List String) : List String := l.insertionSort (fun a b => a ≤ b)

/-! ## Descriptors -/

def parsePublic (s : String) : Result PublicDescriptor := do
  let s := trim s
  require (s.utf8ByteSize ≤ maxDescriptorBytes ∧ (∀ c ∈ s.toList, c.val < 128) ∧
    ∀ c ∈ s.toList, isWhitespace c = false) .descriptor
  let (_, checksum) ← okOr (splitOnce '#' s.toList) .descriptor
  require (checksum.length = 8 ∧ s.toList.count '#' = 1) .descriptor
  okOr (env.parseDescriptor s) .descriptor

def policy (d : PublicDescriptor) : Result Policy :=
  match d with
  | .wpkh _ => .ok .singleSig
  | .wshSortedMulti k keys =>
      if k = 2 ∧ keys.length = 3 then .ok .twoOfThree else .error .unsupportedPolicy
  | .other _ => .error .unsupportedPolicy

/-- The order of a sorted multisig's source keys does not matter. -/
def canonicalDescriptor (d : PublicDescriptor) : PublicDescriptor :=
  match d with
  | .wshSortedMulti k keys => .wshSortedMulti k (env.sortKeys keys)
  | d => d

/-- The identities of the keys, with the key material and fingerprints seen so far. -/
def keyIdentities (branch : UInt32) (network : Network) :
    List DescriptorPublicKey → List String → List UInt32 → Result (List String)
  | [], _, _ => .ok []
  | .other _ :: _, _, _ => .error .unsupportedKeys
  | .xpub x :: rest, materials, fingerprints => do
      let origin ← okOr x.origin .unsupportedKeys
      let info := env.xpubInfo x.xkey
      require (info.isMainnet = (network == .mainnet)) .networkMismatch
      require (x.wildcard = .unhardened ∧ x.derivationPath = [branch] ∧ origin.path ≠ [] ∧
        info.depth = origin.path.length) .unsupportedKeys
      require (info.material ∉ materials ∧ origin.fingerprint ∉ fingerprints)
        (.invalidInput "duplicate key or master fingerprint")
      let identities ← keyIdentities branch network rest (info.material :: materials)
        (origin.fingerprint :: fingerprints)
      .ok (("[" ++ env.displayKeySource origin ++ "]" ++ env.displayXpub x.xkey) :: identities)

/-- Branch-independent account identities in stable order. -/
def identities (d : PublicDescriptor) (branch : UInt32) (network : Network) :
    Result (List String) := do
  let l ← keyIdentities env branch network d.keys [] []
  .ok (sortStrings l)

/-- The receive and change rows of a `descriptors` list. -/
def descriptorRows : List Json → Option String → Option String → Result (List String)
  | [], receive, change => do
      let r ← okOr receive .branchMismatch
      let c ← okOr change .branchMismatch
      .ok [r, c]
  | row :: rest, receive, change => do
      let d ← okOr ((row.get "desc").bind Json.asStr) .descriptor
      match (row.get "internal").bind Json.asBool with
      | some false =>
          if receive = none then descriptorRows rest (some d) change else .error .branchMismatch
      | some true =>
          if change = none then descriptorRows rest receive (some d) else .error .branchMismatch
      | none => .error .branchMismatch

/-- The descriptors of a JSON object. -/
def jsonDescriptors (v : Json) (network : Network) : Result (List String) := do
  require (v.get "network" = none ∨ (v.get "network").bind Json.asStr = some network.key)
    .networkMismatch
  match (v.get "descriptor").bind Json.asStr with
  | some d => .ok [d]
  | none =>
    match (v.get "receive_descriptor").bind Json.asStr,
        (v.get "change_descriptor").bind Json.asStr with
    | some r, some c => .ok [r, c]
    | _, _ =>
      match (v.get "descriptors").bind Json.asArray with
      | some list => do
          require (list.length = 2) .branchMismatch
          descriptorRows list none none
      | none => .error (.invalidInput "unsupported descriptor JSON format")

def inputDescriptors (input : String) (network : Network) : Result (List String) := do
  require (input.utf8ByteSize ≤ maxDescriptorBytes)
    (.invalidInput "descriptor file is too large")
  let chars := (trim input).toList.dropWhile (· = '\ufeff')
  if chars.head? ≠ some '\x7b' then
    let rows := ((lines (String.ofList chars)).map trim).filter (· ≠ "")
    require (1 ≤ rows.length ∧ rows.length ≤ 2)
      (.invalidInput "provide one multipath descriptor or a receive/change pair")
    .ok rows
  else do
    let v ← okOr (env.parseJson (String.ofList chars)) (.invalidInput "descriptor JSON")
    jsonDescriptors v network

/-- The receive and change descriptors of a multipath descriptor. -/
def multipathPair (row : String) : Result (PublicDescriptor × PublicDescriptor) := do
  let d ← parsePublic env row
  let _ ← policy d
  let parts := splitFrom "/<0;1>/*".toList 0 (env.descriptorBody d).toList
  require (parts.length - 1 = d.keys.length ∧ d.keys.length ≠ 0) .branchMismatch
  let r ← okOr (env.parseDescriptor (String.ofList ("/0/*".toList.intercalate parts))) .descriptor
  let c ← okOr (env.parseDescriptor (String.ofList ("/1/*".toList.intercalate parts))) .descriptor
  .ok (r, c)

/-- The receive and change descriptors of one or two input rows. -/
def descriptorPair (rows : List String) : Result (PublicDescriptor × PublicDescriptor) :=
  match rows with
  | [row] => multipathPair env row
  | receive :: change :: _ => do
      let r ← parsePublic env receive
      let c ← parsePublic env change
      .ok (r, c)
  | [] => .error .descriptor

/-- The preview of a receive and a change descriptor. -/
def previewPair (receive change : PublicDescriptor) (network : Network) : Result ImportPreview := do
  let p ← policy receive
  let p' ← policy change
  require (p' = p) .branchMismatch
  let receiveKeys ← identities env receive 0 network
  let changeKeys ← identities env change 1 network
  require (receiveKeys = changeKeys) .branchMismatch
  let receiveDescriptor := env.displayDescriptor (canonicalDescriptor env receive)
  let changeDescriptor := env.displayDescriptor (canonicalDescriptor env change)
  let wallet ← okOr (env.createWallet network receiveDescriptor changeDescriptor) .descriptor
  let id := env.sha256Hex
    ("tundra:v1:" ++ network.key ++ ":" ++ receiveDescriptor ++ ":" ++ changeDescriptor)
  .ok
    { id
      network
      policy := p
      receiveDescriptor
      changeDescriptor
      firstAddress := env.peekAddress wallet .external 0 }

def previewImport (input : String) (network : Network) : Result ImportPreview := do
  let rows ← inputDescriptors env input network
  let (receive, change) ← descriptorPair env rows
  previewPair env receive change network

/-- A wallet id is a hash text. -/
theorem previewImport_id_length {input : String} {network : Network} {p : ImportPreview}
    (h : previewImport env input network = .ok p) : p.id.length = 64 := by
  simp only [previewImport, previewPair, bind_eq_ok, Prod.exists, Except.ok.injEq] at h
  obtain ⟨_, _, _, _, _, _, _, _, _, _, _, _, _, _, _, _, _, _, _, rfl⟩ := h
  exact env.sha256Hex_length _

/-! ## Label origins -/

/-- The origin texts of a descriptor's keys. -/
def originTexts (d : PublicDescriptor) : List String :=
  d.keys.filterMap (fun key => match key with
    | .xpub x => x.origin.map (fun o => "[" ++ env.displayKeySource o ++ "]")
    | .other _ => none)

/-- The abbreviated descriptor of a policy and its sorted origins. -/
def originText (p : Policy) (origins : List String) : Option String :=
  match p, origins with
  | .singleSig, [o] => some ("wpkh(" ++ o ++ ")")
  | .twoOfThree, [a, b, c] =>
      some ("wsh(sortedmulti(2," ++ String.intercalate "," [a, b, c] ++ "))")
  | _, _ => none

/-- BIP 329's abbreviated descriptor contains origins only. -/
def labelOrigin (d : PublicDescriptor) : Result String := do
  let p ← policy d
  okOr (originText p (sortStrings (originTexts env d))) .corruptState

/-- One bracketed key origin of a label file, in its canonical text. -/
def normalizeKey (key : List Char) : Option String := do
  let key ← stripPrefix "[" key
  let key ← stripSuffix "]" key
  let (fingerprint, path) ← splitOnce '/' key
  let source ← env.parseKeySource (String.ofList fingerprint) (String.ofList path)
  if source.path = [] then none else some ("[" ++ env.displayKeySource source ++ "]")

def normalizeLabelOrigin (input : String) : Option String :=
  if input.utf8ByteSize > 1024 ∨ input.toList.any isWhitespace then none
  else do
    let chars := input.toList
    let (body, p) ← match (stripPrefix "wpkh(" chars).bind (stripSuffix ")") with
      | some body => some (body, Policy.singleSig)
      | none =>
          ((stripPrefix "wsh(sortedmulti(2," chars).bind (stripSuffix "))")).map
            (fun body => (body, Policy.twoOfThree))
    let origins ← (body.splitOn ',').mapM (normalizeKey env)
    let origins := sortStrings origins
    if origins.Nodup then originText p origins else none

end Descriptors
end Tundra
