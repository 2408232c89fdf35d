/-
  Tundra.Fixture.Text

  The texts of ids, key origins and descriptors, and the JSON the engine
  reads.  Ids are written in reverse byte order, as block explorers show them.
-/

import Tundra.Descriptor
import Tundra.Fixture.Wallet
import Mathlib.Data.List.Lex

namespace Tundra
namespace Fixture

open Ascii Wire

/-! ## Ids -/

def displayHash (bytes : Bytes) : String := String.ofList (hexChars bytes.reverse)

def parseHash (text : String) : Option Bytes :=
  ((readHex text.toList).filter (fun bytes => bytes.length = 32)).map List.reverse

def displayTxid (txid : Txid) : String := displayHash txid.bytes

def parseTxid (text : String) : Option Txid := (parseHash text).map txidOfBytes

def displayOutPoint (op : OutPoint) : String :=
  String.ofList (hexChars op.txid.bytes.reverse ++ ':' :: Nat.toDigits 10 op.vout.toNat)

/-- A txid of 64 digits, a colon and the decimal output number. -/
def parseOutPoint (text : String) : Option OutPoint := do
  let bytes ← readHex (text.toList.take 64)
  let vout ← readDecimal (text.toList.drop 65)
  if text.toList[64]? = some ':' ∧ bytes.length = 32 ∧ vout < 2 ^ 32 then
    some { txid := txidOfBytes bytes.reverse, vout := UInt32.ofNat vout }
  else none

theorem txidOfBytes_bytes (txid : Txid) : txidOfBytes txid.bytes = txid := by
  obtain ⟨bytes, size⟩ := txid
  have htake : (bytes ++ List.replicate 32 0).take 32 = bytes := by
    rw [← size, List.take_left]
  simp only [txidOfBytes, htake]

theorem parseOutPoint_display (op : OutPoint) : parseOutPoint (displayOutPoint op) = some op := by
  have hlen : (hexChars op.txid.bytes.reverse).length = 64 := by
    rw [length_hexChars, List.length_reverse, op.txid.size]
  have hchars : (displayOutPoint op).toList =
      hexChars op.txid.bytes.reverse ++ ':' :: Nat.toDigits 10 op.vout.toNat := String.toList_ofList
  have htake : (displayOutPoint op).toList.take 64 = hexChars op.txid.bytes.reverse := by
    rw [hchars, ← hlen, List.take_left]
  have hdrop : (displayOutPoint op).toList.drop 65 = Nat.toDigits 10 op.vout.toNat := by
    have hsplit : hexChars op.txid.bytes.reverse ++ ':' :: Nat.toDigits 10 op.vout.toNat =
        (hexChars op.txid.bytes.reverse ++ [':']) ++ Nat.toDigits 10 op.vout.toNat := by simp
    rw [hchars, hsplit, List.drop_left' (by rw [List.length_append, hlen]; rfl)]
  have hcolon : (displayOutPoint op).toList[64]? = some ':' := by
    rw [hchars, List.getElem?_append_right (by omega), hlen]
    rfl
  have hvout : op.vout.toNat < 2 ^ 32 := op.vout.toNat_lt
  have hsize : op.txid.bytes.reverse.length = 32 := by rw [List.length_reverse, op.txid.size]
  simp only [parseOutPoint, htake, hdrop, hcolon, readHex_hexChars, readDecimal_toDigits,
    Option.bind_eq_bind, Option.bind_some, hsize, hvout, and_self, if_true, List.reverse_reverse,
    txidOfBytes_bytes, UInt32.ofNat_toNat]

theorem displayOutPoint_length (op : OutPoint) : (displayOutPoint op).length ≤ 75 := by
  have hdigits : (Nat.toDigits 10 op.vout.toNat).length ≤ 10 := by
    have hvout : op.vout.toNat < 2 ^ 32 := op.vout.toNat_lt
    exact length_toDigits_le (by omega) (by omega)
  have hlen : (hexChars op.txid.bytes.reverse).length = 64 := by
    rw [length_hexChars, List.length_reverse, op.txid.size]
  rw [displayOutPoint, String.length_ofList, List.length_append, List.length_cons, hlen]
  omega

/-! ## Key origins and descriptors -/

/-- One step of a derivation path; hardened steps have an apostrophe. -/
def stepChars (step : UInt32) : List Char :=
  if 0x80000000 ≤ step.toNat then Nat.toDigits 10 (step.toNat - 0x80000000) ++ ['\'']
  else Nat.toDigits 10 step.toNat

def pathChars (path : List UInt32) : List Char := path.flatMap (fun step => '/' :: stepChars step)

def keySourceChars (k : KeySource) : List Char :=
  hexChars (leBytes 4 k.fingerprint.toNat).reverse ++ pathChars k.path

def xpubChars (x : Xpub) : List Char :=
  if x = accountXpub then accountText else hexChars x

def wildcardChars : Wildcard → List Char
  | .none => []
  | .unhardened => ['/', '*']
  | .hardened => ['/', '*', '\'']

def keyChars : DescriptorPublicKey → List Char
  | .xpub x =>
      (match x.origin with
        | some o => '[' :: (keySourceChars o ++ [']'])
        | none => []) ++ (xpubChars x.xkey ++ (pathChars x.derivationPath ++ wildcardChars x.wildcard))
  | .other text => text.toList

/-- The descriptor without its checksum. -/
def bodyChars : PublicDescriptor → List Char
  | .wpkh key => ['w', 'p', 'k', 'h', '('] ++ (keyChars key ++ [')'])
  | .wshSortedMulti k keys =>
      ("wsh(sortedmulti(".toList) ++ (Nat.toDigits 10 k ++
        (keys.flatMap (fun key => ',' :: keyChars key) ++ [')', ')']))
  | .other keys => ['s', 'h', '('] ++ (keys.flatMap (fun key => ',' :: keyChars key) ++ [')'])

def accountDescriptor (branch : UInt32) : PublicDescriptor :=
  .wpkh (.xpub
    { origin := some accountSource
      xkey := accountXpub
      derivationPath := [branch]
      wildcard := .unhardened })

/-- The checksums of the account's descriptors; zeros stand for all others. -/
def checksum (body : List Char) : List Char :=
  if body = bodyChars (accountDescriptor 0) then ['u', 'p', 's', 'j', '6', 'd', 'd', 'n']
  else if body = bodyChars (accountDescriptor 1) then ['d', '4', '4', 'n', '8', 'c', 'a', 't']
  else List.replicate 8 '0'

def displayDescriptor (d : PublicDescriptor) : String :=
  String.ofList (bodyChars d ++ '#' :: checksum (bodyChars d))

/-- One step of a path, with an apostrophe or an `h` when it is hardened. -/
def readStep (chars : List Char) : Option UInt32 :=
  if chars.getLast? = some '\'' ∨ chars.getLast? = some 'h' then
    ((readDecimal chars.dropLast).filter (· < 0x80000000)).map
      (fun n => UInt32.ofNat (n + 0x80000000))
  else ((readDecimal chars).filter (· < 0x80000000)).map UInt32.ofNat

def parseKeySource (fingerprint path : String) : Option KeySource := do
  let bytes ← (readHex fingerprint.toList).filter (fun bytes => bytes.length = 4)
  let steps ← if path = "" ∨ path = "m" then some []
    else (path.toList.splitOn '/').mapM readStep
  some { fingerprint := UInt32.ofNat (leValue bytes.reverse), path := steps }

def readXpub (chars : List Char) : Option Xpub :=
  if chars = accountText then some accountXpub
  else (readHex chars).filter (fun x => x.length = 78)

/-- The key of an account on one branch, or on both. -/
def readKey : List Char → Option DescriptorPublicKey
  | '[' :: chars => do
      let (source, rest) ← Descriptors.splitOnce ']' chars
      let (fingerprint, path) ← Descriptors.splitOnce '/' source
      let origin ← parseKeySource (String.ofList fingerprint) (String.ofList path)
      let (key, steps) ← Descriptors.splitOnce '/' rest
      let xkey ← readXpub key
      let account (branch : UInt32) : DescriptorPublicKey :=
        .xpub { origin := some origin, xkey, derivationPath := [branch], wildcard := .unhardened }
      if steps = "0/*".toList then some (account 0)
      else if steps = "1/*".toList then some (account 1)
      else if steps = "<0;1>/*".toList then some (.other (String.ofList ('[' :: chars)))
      else none
  | _ => none

/-- A descriptor of one key, or of a sorted multisig. -/
def readBody (chars : List Char) : Option PublicDescriptor :=
  match (Descriptors.stripPrefix "wpkh(" chars).bind (Descriptors.stripSuffix ")") with
  | some key => (readKey key).map .wpkh
  | none => do
      let body ← (Descriptors.stripPrefix "wsh(sortedmulti(" chars).bind
        (Descriptors.stripSuffix "))")
      let (k, keys) ← Descriptors.splitOnce ',' body
      let k ← readDecimal k
      let keys ← (keys.splitOn ',').mapM readKey
      some (.wshSortedMulti k keys)

def parseDescriptor (text : String) : Option PublicDescriptor :=
  match Descriptors.splitOnce '#' text.toList with
  | some (body, sum) => if sum = checksum body then readBody body else none
  | none => readBody text.toList

/-- Keys in an order: their parts, one after another. -/
def keyRank : DescriptorPublicKey → List (List Nat)
  | .other text => [[0], text.toList.map Char.toNat]
  | .xpub x =>
      [[1],
        (match x.origin with
          | some o => o.fingerprint.toNat :: o.path.map UInt32.toNat
          | none => []),
        x.xkey.map UInt8.toNat, x.derivationPath.map UInt32.toNat,
        [match x.wildcard with
          | .none => 0
          | .unhardened => 1
          | .hardened => 2]]

def sortKeys (keys : List DescriptorPublicKey) : List DescriptorPublicKey :=
  keys.insertionSort (fun a b => keyRank a ≤ keyRank b)

/-- Mainnet or not, the depth, and the chain code and public key. -/
def xpubInfo (x : Xpub) : XpubInfo where
  isMainnet := x.take 4 = [0x04, 0x88, 0xb2, 0x1e]
  depth := (x.getD 4 0).toNat
  material := String.ofList (hexChars (x.drop 13))

/-! ## JSON -/

/-- The characters of a string up to its closing quote, with the two escapes of
    printable characters. -/
def readText : List Char → Option (List Char × List Char)
  | [] => none
  | '"' :: rest => some ([], rest)
  | '\\' :: '"' :: rest => (readText rest).map (fun r => ('"' :: r.1, r.2))
  | '\\' :: '\\' :: rest => (readText rest).map (fun r => ('\\' :: r.1, r.2))
  | '\\' :: _ => none
  | c :: rest => (readText rest).map (fun r => (c :: r.1, r.2))

def skipSpace (chars : List Char) : List Char := chars.dropWhile isWhitespace

mutual

/-- One JSON value; `fuel` bounds the nesting. -/
def readValue : Nat → List Char → Option (Json × List Char)
  | 0, _ => none
  | fuel + 1, chars =>
      match skipSpace chars with
      | '"' :: rest => (readText rest).map (fun r => (.string (String.ofList r.1), r.2))
      | '[' :: rest =>
          match skipSpace rest with
          | ']' :: rest => some (.array [], rest)
          | rest => (readItems fuel rest).map (fun r => (.array r.1, r.2))
      | '\x7b' :: rest =>
          match skipSpace rest with
          | '\x7d' :: rest => some (.object [], rest)
          | rest => (readFields fuel rest).map (fun r => (.object r.1, r.2))
      | 't' :: 'r' :: 'u' :: 'e' :: rest => some (.bool true, rest)
      | 'f' :: 'a' :: 'l' :: 's' :: 'e' :: rest => some (.bool false, rest)
      | 'n' :: 'u' :: 'l' :: 'l' :: rest => some (.null, rest)
      | _ => none

def readItems : Nat → List Char → Option (List Json × List Char)
  | 0, _ => none
  | fuel + 1, chars => do
      let (item, rest) ← readValue fuel chars
      match skipSpace rest with
      | ',' :: rest => (readItems fuel rest).map (fun r => (item :: r.1, r.2))
      | ']' :: rest => some ([item], rest)
      | _ => none

def readFields : Nat → List Char → Option (List (String × Json) × List Char)
  | 0, _ => none
  | fuel + 1, chars =>
      match skipSpace chars with
      | '"' :: rest => do
          let (key, rest) ← readText rest
          match skipSpace rest with
          | ':' :: rest => do
              let (value, rest) ← readValue fuel rest
              match skipSpace rest with
              | ',' :: rest =>
                  (readFields fuel rest).map (fun r => ((String.ofList key, value) :: r.1, r.2))
              | '\x7d' :: rest => some ([(String.ofList key, value)], rest)
              | _ => none
          | _ => none
      | _ => none

end

def parseJson (text : String) : Option Json :=
  match readValue 16 text.toList with
  | some (value, rest) => if skipSpace rest = [] then some value else none
  | none => none

/-- The descriptors of a snapshot, as its JSON text has them. -/
def stateJson (w : TestWallet) : String :=
  "\x7b\"descriptor\":\"" ++ w.texts.1 ++ "\",\"change_descriptor\":\"" ++ w.texts.2 ++ "\"\x7d"

def descriptorPairJson (external internal : String) : String :=
  "\x7b\"descriptors\":[\x7b\"desc\":\"" ++ external ++ "\",\"internal\":false\x7d,\x7b\"desc\":\"" ++
    internal ++ "\",\"internal\":true\x7d]\x7d"

/-! ## Reviews -/

/-- The bytes of a JSON string: six for a control character, at most six for any. -/
def jsonStringLength (s : String) : Nat :=
  2 + (s.toList.map (fun c =>
    if c.val < 0x20 then 6 else if c = '"' ∨ c = '\\' then 2 else min 6 c.utf8Size)).sum

theorem jsonStringLength_le (s : String) : jsonStringLength s ≤ 2 + 6 * s.length := by
  have hsum : ∀ l : List Char, (l.map (fun c =>
      if c.val < 0x20 then 6 else if c = '"' ∨ c = '\\' then 2 else min 6 c.utf8Size)).sum ≤
        6 * l.length := by
    intro l
    induction l with
    | nil => simp
    | cons c l ih =>
        rw [List.map_cons, List.sum_cons, List.length_cons]
        have hc : (if c.val < 0x20 then 6 else if c = '"' ∨ c = '\\' then 2
            else min 6 c.utf8Size) ≤ 6 := by
          split_ifs <;> omega
        omega
  have htext := hsum s.toList
  rw [String.length_toList] at htext
  rw [jsonStringLength]
  omega

/-- The bytes of a review's JSON text. -/
def reviewJsonLength (r : DraftReview) : Nat :=
  180 + jsonStringLength r.id + jsonStringLength r.walletId + jsonStringLength r.label +
    jsonStringLength r.state.text +
    (r.inputs.map (fun i => 60 + jsonStringLength i.outpoint + jsonStringLength i.label)).sum +
    (r.outputs.map (fun o => 80 + jsonStringLength o.address)).sum

theorem reviewJsonLength_le (r : DraftReview) : reviewJsonLength r ≤
    512 + 6 * (r.id.length + r.walletId.length + r.label.length + r.state.text.length) +
    (r.inputs.map (fun i => 128 + 6 * (i.outpoint.length + i.label.length))).sum +
    (r.outputs.map (fun o => 128 + 6 * o.address.length)).sum := by
  have hinputs : (r.inputs.map (fun i =>
      60 + jsonStringLength i.outpoint + jsonStringLength i.label)).sum ≤
      (r.inputs.map (fun i => 128 + 6 * (i.outpoint.length + i.label.length))).sum :=
    List.sum_le_sum fun i _ => by
      have h₁ := jsonStringLength_le i.outpoint
      have h₂ := jsonStringLength_le i.label
      omega
  have houtputs : (r.outputs.map (fun o => 80 + jsonStringLength o.address)).sum ≤
      (r.outputs.map (fun o => 128 + 6 * o.address.length)).sum :=
    List.sum_le_sum fun o _ => by
      have h₁ := jsonStringLength_le o.address
      omega
  have h₁ := jsonStringLength_le r.id
  have h₂ := jsonStringLength_le r.walletId
  have h₃ := jsonStringLength_le r.label
  have h₄ := jsonStringLength_le r.state.text
  rw [reviewJsonLength]
  omega

end Fixture
end Tundra
