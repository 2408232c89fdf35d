/-
  Tundra.Fixture.Labelled

  The import of an empty label for an address of the account.
-/

import Tundra.Fixture.Synced
import Tundra.Changes

namespace Tundra
namespace Fixture

open Checked Relational Engine Changes

/-- The account's first receive address. -/
def accountAddress : String := "bcrt1q7f0pjwhc3jzzv0w4uurm589506glv2dggfan4s"

/-- One record: the address with an empty label. -/
def emptyLabel : String :=
  "\x7b\"type\":\"addr\",\"ref\":\"bcrt1q7f0pjwhc3jzzv0w4uurm589506glv2dggfan4s\",\"label\":\"\"\x7d"

def emptyRecord : Labels.LabelRecord where
  kind := .addr
  reference := accountAddress
  label := some ""
  spendable := none
  origin := none

/-- The fields of the record. -/
def emptyFields : List Char :=
  textFields ("type".toList, "addr".toList)
    [("ref".toList, accountAddress.toList), ("label".toList, [])]

theorem toList_emptyLabel : emptyLabel.toList = '\x7b' :: emptyFields := by decide

theorem readFields_empty : readFields 15 emptyFields =
    some ([("type", .string "addr"), ("ref", .string accountAddress), ("label", .string "")],
      []) := by
  have hplain : ∀ f ∈ [("type".toList, "addr".toList), ("ref".toList, accountAddress.toList),
      ("label".toList, [])], ∀ c ∈ f.1 ++ f.2, c ≠ '"' ∧ c ≠ '\\' := by
    intro f hf
    simp only [List.mem_cons, List.not_mem_nil, or_false] at hf
    rcases hf with rfl | rfl | rfl
    · exact List.forall_iff_forall_mem.mp (by decide)
    · exact List.forall_iff_forall_mem.mp (by decide)
    · exact List.forall_iff_forall_mem.mp (by decide)
  exact (readFields_texts 11 hplain).trans rfl

/-- The record as a JSON value. -/
def emptyValue : Json :=
  .object [("type", .string "addr"), ("ref", .string accountAddress), ("label", .string "")]

theorem emptyValue_get (key : String) : emptyValue.get key =
    if key = "type" then some (.string "addr")
    else if key = "ref" then some (.string accountAddress)
    else if key = "label" then some (.string "") else none := by
  rw [emptyValue, Json.get]
  split_ifs with htype href hlabel
  · rw [htype, List.lookup_cons_self]
  · rw [href]
    simp [List.lookup_cons]
  · rw [hlabel]
    simp [List.lookup_cons]
  · simp [List.lookup_cons, beq_eq_false_iff_ne.mpr htype, beq_eq_false_iff_ne.mpr href,
      beq_eq_false_iff_ne.mpr hlabel]

-- the record of crates is deeper than the default limit
set_option maxRecDepth 2000 in
theorem parse_emptyLabel : Labels.parseLabels env emptyLabel = .ok ([emptyRecord], 0) := by
  have hlines : (lines emptyLabel).filter (fun line => trim line ≠ "") = [emptyLabel] := by
    decide
  have hparse : env.parseJson emptyLabel = some emptyValue := by
    have hread : env.parseJson = parseJson := rfl
    rw [hread]
    exact parseJson_object toList_emptyLabel readFields_empty
  have hrecord : Labels.parseRecord env emptyLabel = .ok (some emptyRecord) := by
    have hlabel : Labels.labelField emptyValue = .ok (some "") := by
      rw [Labels.labelField, emptyValue_get]
      simp [Labels.validateLabel, Labels.ValidLabel]
    have hspendable : Labels.spendableField emptyValue .addr = .ok none := by
      rw [Labels.spendableField, emptyValue_get]
      simp
    have horigin : Labels.originField emptyValue = .ok none := by
      rw [Labels.originField, emptyValue_get]
      simp
    have hkind : LabelKind.parse "addr" = some .addr := by decide
    have hreference : accountAddress ≠ "" ∧ accountAddress.utf8ByteSize ≤ 200 := by decide
    have htype : (emptyValue.get "type").bind Json.asStr = some "addr" := by
      simp [emptyValue_get, Json.asStr]
    have href : (emptyValue.get "ref").bind Json.asStr = some accountAddress := by
      simp [emptyValue_get, Json.asStr]
    rw [Labels.parseRecord, hparse, okOr_some, ok_bind, htype, okOr_some, ok_bind, hkind]
    dsimp only
    rw [href, okOr_some, ok_bind, require_of hreference, ok_bind, hlabel, ok_bind, hspendable,
      ok_bind, horigin, ok_bind, emptyRecord]
  rw [Labels.parseLabels, require_of (by decide), ok_bind, hlines, Labels.parseLines,
    require_of (by decide), ok_bind, hrecord, ok_bind]
  dsimp only
  rw [require_of List.not_mem_nil, ok_bind]
  rfl

/-! ## The import -/

/-- The origin of the account's labels. -/
def accountOrigin : String := "wpkh(" ++ ("[" ++ crates.displayKeySource accountSource ++ "]") ++ ")"

-- the record of crates is deeper than the default limit
set_option maxRecDepth 2000 in
theorem origin_account :
    Descriptors.labelOrigin env (env.publicDescriptor importedWallet .external) =
      .ok accountOrigin := by
  have hpolicy : Descriptors.policy (env.publicDescriptor importedWallet .external) =
      .ok .singleSig := rfl
  have htexts : Descriptors.originTexts env (env.publicDescriptor importedWallet .external) =
      ["[" ++ crates.displayKeySource accountSource ++ "]"] := rfl
  rw [Descriptors.labelOrigin, hpolicy, ok_bind, htexts]
  rfl

-- the record of crates is deeper than the default limit
set_option maxRecDepth 2000 in
theorem known_receive : knownReference env importedWallet .addr accountAddress = true := by
  have hparse : env.parseAddress = parseAddress := rfl
  have hread : parseAddress accountAddress =
      some (fun network => if network = .mainnet then none else some receiveScript) := rfl
  have hnetwork : env.walletNetwork importedWallet = .regtest := rfl
  have hmine : env.isMine importedWallet receiveScript = true := rfl
  rw [knownReference, hparse, hread, hnetwork]
  exact hmine

/-- The store after the import. -/
def emptyStore : Db TestWallet := (accountStore 0).putLabel walletId .addr accountAddress ""

theorem no_label : (accountStore 0).labels[(walletId, LabelKind.addr, accountAddress)]? = none :=
  Std.ExtTreeMap.getElem?_empty

/-- The import writes a row and counts no change. -/
theorem import_emptyLabel : importLabels env (accountStore 0) walletId emptyLabel true =
    .ok ({ matched := 1, skipped := 0, changed := 0 }, emptyStore) := by
  have hmatch : recordMatches env (loadedAccount (accountRow 0)).wallet accountOrigin emptyRecord =
      true := known_receive
  have hcounted : applyRecord true (accountStore 0) walletId emptyRecord = (false, emptyStore) := by
    have hread : getLabel (accountStore 0) walletId .addr accountAddress = "" := by
      rw [getLabel, no_label]
      rfl
    show (decide (getLabel (accountStore 0) walletId .addr accountAddress ≠ "") || false,
      emptyStore) = _
    rw [hread]
    rfl
  have hrecords : importRecords env true walletId (loadedAccount (accountRow 0)).wallet
      accountOrigin [emptyRecord] [] { matched := 0, skipped := 0, changed := 0 } (accountStore 0) =
      .ok ({ matched := 1, skipped := 0, changed := 0 }, emptyStore) := by
    rw [importRecords, if_pos hmatch, require_of List.not_mem_nil, ok_bind, hcounted]
    rfl
  have horigin : Descriptors.labelOrigin env
      (env.publicDescriptor (loadedAccount (accountRow 0)).wallet .external) =
      .ok accountOrigin := origin_account
  rw [importLabels, parse_emptyLabel, ok_bind]
  dsimp only
  rw [(account_fresh 0).toHoldsAccount.load, ok_bind, horigin, ok_bind, hrecords]
  rfl

/-- An import that counts no change: the row of the address differs, and so does
    the export. -/
theorem empty_label_uncounted : ∃ preview db',
    importLabels env (accountStore 0) walletId emptyLabel true = .ok (preview, db') ∧
    preview.changed = 0 ∧ 0 < {k | RowDiffers (accountStore 0) db' walletId k}.encard ∧
    exportLabels env db' walletId ≠ exportLabels env (accountStore 0) walletId := by
  have hrow : emptyStore.labels[(walletId, LabelKind.addr, accountAddress)]? = some "" := by
    rw [emptyStore, Db.putLabel, Table.get_insert_self]
  have hdiffers : emptyStore.labels[(walletId, LabelKind.addr, accountAddress)]? ≠
      (accountStore 0).labels[(walletId, LabelKind.addr, accountAddress)]? := by
    rw [hrow, no_label]
    exact Option.some_ne_none ""
  refine ⟨_, _, import_emptyLabel, rfl, ?_, fun hexport => ?_⟩
  · rw [Set.encard_pos]
    exact ⟨(.addr, accountAddress), .inl hdiffers⟩
  · have hload := (account_fresh 0).toHoldsAccount.load
    have hload' : load env emptyStore walletId = .ok (loadedAccount (accountRow 0)) := hload
    have hrows := (Exports.exportLabels_eq_iff env hload hload' origin_account).mp hexport
    exact hdiffers (hrows.label .addr accountAddress)

/-- The account's empty label is hidden, and so the count is not exact. -/
theorem changes_exact_empty :
    ({k | RowDiffers (accountStore 0) emptyStore walletId k}.encard = ((0 : Nat) : ℕ∞) ∧
      ((0 : Nat) = 0 ↔
        exportLabels env emptyStore walletId = exportLabels env (accountStore 0) walletId) ∧
      ((0 : Nat) = 0 → ∀ (review : DraftReview) (wallet : TestWallet)
        (info : Broadcast.BroadcastInfo),
        (Broadcast.applyObservedLabels env emptyStore walletId review wallet info).map Db.labels =
          (Broadcast.applyObservedLabels env (accountStore 0) walletId review wallet info).map
            Db.labels)) ↔
      ¬ Hides env (accountStore 0) walletId emptyLabel :=
  changes_exact env import_emptyLabel

end Fixture
end Tundra
