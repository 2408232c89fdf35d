/-
  Tundra.Fixture.Account

  The import of the fixture's account, a single key on regtest: what the
  importer makes of its two descriptors, and the wallet it stores.
-/

import Tundra.Inputs
import Tundra.Engine
import Tundra.Fixture.Server
import Tundra.Fixture.Descriptors
import Mathlib.Data.String.Basic

namespace Tundra
namespace Fixture

open Ascii Wire Relational Checked Descriptors Engine

/-! ## The descriptors -/

def receiveText : String := displayDescriptor (accountDescriptor 0)

def changeText : String := displayDescriptor (accountDescriptor 1)

/-- The account as a receive and a change descriptor, each on its line. -/
def accountPair : String := receiveText ++ "\n" ++ changeText

/-- The characters of one of the two descriptors. -/
def accountChars (branch : UInt32) : List Char :=
  bodyChars (accountDescriptor branch) ++ '#' :: checksum (bodyChars (accountDescriptor branch))

theorem toList_display (branch : UInt32) :
    (displayDescriptor (accountDescriptor branch)).toList = accountChars branch :=
  String.toList_ofList

/-- The account. -/
def account : Account where
  origin := accountSource
  xkey := accountXpub
  size := accountXpub_length
  hasPath := by decide

-- the record of crates is deeper than the default limit
set_option maxRecDepth 2000 in
theorem account_ok : AccountsOk descriptorEnv .regtest [account] where
  network a ha := by
    rw [List.mem_singleton.mp ha]
    rfl
  depth a ha := by
    rw [List.mem_singleton.mp ha]
    rfl
  materials := List.nodup_singleton _
  fingerprints := List.nodup_singleton _

/-- A descriptor of the account, on one branch or both, is a descriptor's text. -/
theorem account_text {branch : String} {key : Account → DescriptorPublicKey}
    (h : Spelled branch key) (hchars : ∀ c ∈ branch.toList, IsBodyChar c)
    (hfive : branch.length ≤ 5) :
    DescriptorText (displayDescriptor (describe .singleSig ([account].map key))) := by
  have hlength : [account].length = keyCount .singleSig := rfl
  obtain ⟨sum, hsum, hsumChars, hdisplay⟩ := h.display_body hlength
  have htext := descriptorText_body (p := .singleSig) account_ok rfl hchars hfive hsum hsumChars
  rw [hdisplay]
  exact htext

theorem describe_account (k : KeychainKind) :
    describe .singleSig ([account].map (accountKey k)) = accountDescriptor k.branch := rfl

theorem parse_account (k : KeychainKind) :
    parseDescriptor (displayDescriptor (accountDescriptor k.branch)) =
      some (accountDescriptor k.branch) := by
  rw [← describe_account]
  exact (spelled_accountKey k).parse_display rfl

theorem parseDescriptor_receive : parseDescriptor receiveText = some (accountDescriptor 0) :=
  parse_account .external

theorem parseDescriptor_change : parseDescriptor changeText = some (accountDescriptor 1) :=
  parse_account .internal

theorem text_account (k : KeychainKind) :
    DescriptorText (displayDescriptor (accountDescriptor k.branch)) := by
  have hfive : k.branchText.length ≤ 5 := by cases k <;> decide
  rw [← describe_account]
  exact account_text (spelled_accountKey k) (branchText_chars k) hfive

theorem text_receive : DescriptorText receiveText := text_account .external

theorem text_change : DescriptorText changeText := text_account .internal

-- the record of crates is deeper than the default limit
set_option maxRecDepth 2000 in
theorem parsePublic_text {text : String} (h : DescriptorText text) :
    parsePublic env text = okOr (parseDescriptor text) .descriptor := by
  have hparse : env.parseDescriptor = parseDescriptor := rfl
  rw [parsePublic_checksummed env h.checksummed, hparse]

theorem parse_receive : parsePublic env receiveText = .ok (accountDescriptor 0) := by
  rw [parsePublic_text text_receive, parseDescriptor_receive, okOr]

theorem parse_change : parsePublic env changeText = .ok (accountDescriptor 1) := by
  rw [parsePublic_text text_change, parseDescriptor_change, okOr]

/-! ## The preview -/

theorem pair_rows : inputDescriptors env accountPair .regtest = .ok [receiveText, changeText] :=
  (inputDescriptors_lines descriptorEnv .regtest text_receive text_change).2

/-- The identity of the account's key. -/
def accountIdentity : String :=
  "[" ++ String.ofList (keySourceChars accountSource) ++ "]" ++ String.ofList (xpubChars accountXpub)

-- the record of crates is deeper than the default limit
set_option maxRecDepth 2000 in
theorem account_identities :
    identities env (accountDescriptor 0) 0 .regtest = .ok (sortStrings [accountIdentity]) ∧
    identities env (accountDescriptor 1) 1 .regtest = .ok (sortStrings [accountIdentity]) := by
  constructor <;> rfl

/-- What the importer shows of the account. -/
def accountPreview : ImportPreview where
  id := walletId
  network := .regtest
  policy := .singleSig
  receiveDescriptor := receiveText
  changeDescriptor := changeText
  firstAddress := importedWallet.peekAddress .external 0

/-- The text whose hash is the wallet's id. -/
theorem wallet_hash :
    sha256Hex ("tundra:v1:" ++ Network.regtest.key ++ ":" ++ receiveText ++ ":" ++ changeText) =
      walletId := by
  have htext : "tundra:v1:" ++ Network.regtest.key ++ ":" ++ receiveText ++ ":" ++ changeText =
      walletText := by
    have hlead : "tundra:v1:" ++ Network.regtest.key ++ ":" = "tundra:v1:regtest:" := by decide
    rw [hlead]
    rfl
  rw [htext, sha256Hex, if_pos rfl]

theorem create_account : createWallet .regtest receiveText changeText = some importedWallet := by
  rw [createWallet, parseDescriptor_receive, parseDescriptor_change]
  rfl

-- the record of crates is deeper than the default limit
set_option maxRecDepth 2000 in
theorem preview_of_rows {input : String}
    (hrows : inputDescriptors env input .regtest = .ok [receiveText, changeText]) :
    previewImport env input .regtest = .ok accountPreview := by
  have hpair : descriptorPair env [receiveText, changeText] =
      .ok (accountDescriptor 0, accountDescriptor 1) := by
    rw [descriptorPair, parse_receive, parse_change]
    rfl
  obtain ⟨hreceive, hchange⟩ := account_identities
  have hcanonical : ∀ branch, canonicalDescriptor env (accountDescriptor branch) =
      accountDescriptor branch := fun _ => rfl
  have hpolicy : ∀ branch, policy (accountDescriptor branch) = .ok .singleSig := fun _ => rfl
  -- The functions are compared before they are applied, so that no text is evaluated.
  have hdisplay : env.displayDescriptor = displayDescriptor := rfl
  have hcreate : env.createWallet = createWallet := rfl
  have hhash : env.sha256Hex = sha256Hex := rfl
  have hpeek : env.peekAddress = TestWallet.peekAddress := rfl
  have hreceiveText : displayDescriptor (accountDescriptor 0) = receiveText := rfl
  have hchangeText : displayDescriptor (accountDescriptor 1) = changeText := rfl
  unfold previewImport
  rw [hrows, ok_bind, hpair, ok_bind]
  dsimp only
  rw [previewPair, hpolicy, hpolicy, ok_bind, ok_bind, require_of rfl, ok_bind, hreceive, ok_bind,
    hchange, ok_bind, require_of rfl, ok_bind, hcanonical, hcanonical, hdisplay, hcreate, hhash,
    hpeek, hreceiveText, hchangeText]
  dsimp only
  rw [create_account, wallet_hash, okOr, ok_bind, accountPreview]

theorem preview_account : previewImport env accountPair .regtest = .ok accountPreview :=
  preview_of_rows pair_rows

/-! ## Its other writings -/

/-- The account as one multipath descriptor. -/
def multipathText : String := displayDescriptor (describe .singleSig [multipathKey crates account])

theorem text_multipath : DescriptorText multipathText := by
  have hchars : ∀ c ∈ "<0;1>".toList, IsBodyChar c := bodyChars_of_forall (by decide)
  have hfive : "<0;1>".length ≤ 5 := by decide
  exact account_text spelled_multipath hchars hfive

/-- The lines of the two descriptors write the account. -/
theorem writes_accountPair : Writes descriptorEnv .regtest .singleSig [account] accountPair :=
  writes_pair rfl (inputDescriptors_eq_ok.mp pair_rows) (.refl [account]) (.refl [account])
    parse_receive parse_change

theorem writes_multipathText : Writes descriptorEnv .regtest .singleSig [account] multipathText := by
  have hrow := inputDescriptors_word env .regtest text_multipath.checksummed.toOneWord
    text_multipath.head text_multipath.checksummed.size
  refine writes_multipath rfl (inputDescriptors_eq_ok.mp hrow) ?_
  have hread : parseDescriptor (displayDescriptor (describe .singleSig
      ([account].map (multipathKey crates)))) =
        some (describe .singleSig ([account].map (multipathKey crates))) :=
    spelled_multipath.parse_display rfl
  refine (parsePublic_text text_multipath).trans ?_
  rw [multipathText]
  exact congrArg (fun d => okOr d Error.descriptor) hread

/-- The canonical pair of the account is imported again. -/
theorem account_reimported :
    previewImport descriptorEnv.toEnv
      (accountPreview.receiveDescriptor ++ "\n" ++ accountPreview.changeDescriptor) .regtest =
        .ok accountPreview := by
  obtain ⟨-, -, -, -, h, -⟩ := @canonical_pair_reimported _ _ _ descriptorEnv _ _ _ preview_account
  exact h

/-- The stored row of the account. -/
def accountRow (now : Nat) : WalletRow TestWallet where
  name := "Main"
  network := Network.regtest.key
  policy := Policy.singleSig.key
  state := importedWallet
  syncedAt := none
  createdAt := now

/-- A store that holds nothing but the imported account. -/
def accountStore (now : Nat) : Db TestWallet where
  wallets := (∅ : Table String (WalletRow TestWallet)).insert walletId (accountRow now)

def accountSummary : WalletSummary where
  id := walletId
  name := "Main"
  network := .regtest
  policy := .singleSig
  syncedAt := none
  totalSats := none
  availableSats := none

-- the record of crates is deeper than the default limit
set_option maxRecDepth 2000 in
/-- The import into an empty store. -/
theorem import_account (now : Nat) :
    importWallet env {} "Main" accountPair .regtest now = .ok (accountSummary, accountStore now) := by
  have hname : text "Main" 80 = .ok () :=
    require_of ⟨by decide, by decide, List.forall_iff_forall_mem.mp (by decide)⟩
  have hnew : ({} : Db TestWallet).wallets[accountPreview.id]? = none :=
    Std.ExtTreeMap.getElem?_empty
  have hsame : checkEquivalent env ({} : Db TestWallet) accountPreview = .ok () := if_neg (by decide)
  have hcreate : env.createWallet = createWallet := rfl
  have hstaged : env.takeStaged = some := rfl
  have hname' : trim "Main" = "Main" := by decide
  unfold importWallet
  rw [hname, ok_bind, preview_account, ok_bind, require_of hnew, ok_bind, hsame, ok_bind, hcreate]
  show (okOr (createWallet .regtest receiveText changeText) _ >>= _) = _
  rw [create_account, okOr, ok_bind, hstaged, okOr, ok_bind, hname']
  rfl

end Fixture
end Tundra
