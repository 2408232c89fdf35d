/-
  Tundra.Fixture.Stored

  Stores that hold the fixture's account: the stored snapshot's descriptors can
  be imported again, so a backup of such a store is valid.
-/

import Tundra.Fixture.Account
import Tundra.System

namespace Tundra
namespace Fixture

open Ascii Wire Relational Checked Descriptors Engine Backup

/-! ## The JSON of the stored descriptors -/

/-- The text of a descriptor needs no escape. -/
theorem text_plain {s : String} (h : DescriptorText s) : ∀ c ∈ s.toList, c ≠ '"' ∧ c ≠ '\\' := by
  intro c hc
  constructor
  · rintro rfl
    exact absurd (h.chars _ hc) (by decide)
  · rintro rfl
    exact absurd (h.chars _ hc) (by decide)

theorem toList_receive : receiveText.toList = accountChars 0 := toList_display 0

theorem toList_change : changeText.toList = accountChars 1 := toList_display 1

/-- The snapshot of the account, whatever its wallet has seen. -/
structure OfAccount (w : TestWallet) : Prop where
  network : w.network = .regtest
  receive : w.texts.1.toList = accountChars 0
  change : w.texts.2.toList = accountChars 1

/-- The fields of a snapshot's text. -/
def stateFields (receive change : List Char) : List Char :=
  '"' :: ("descriptor".toList ++ '"' :: ':' :: '"' :: (receive ++ '"' :: ',' :: '"' ::
    ("change_descriptor".toList ++ '"' :: ':' :: '"' :: (change ++ ['"', '\x7d']))))

theorem toList_stateText (receive change : String) :
    ("\x7b\"descriptor\":\"" ++ receive ++ "\",\"change_descriptor\":\"" ++ change ++
      "\"\x7d").toList = '\x7b' :: stateFields receive.toList change.toList := by
  have hopen : "\x7b\"descriptor\":\"".toList =
      '\x7b' :: '"' :: ("descriptor".toList ++ ['"', ':', '"']) := by decide
  have hbetween : "\",\"change_descriptor\":\"".toList =
      '"' :: ',' :: '"' :: ("change_descriptor".toList ++ ['"', ':', '"']) := by decide
  have hclose : "\"\x7d".toList = ['"', '\x7d'] := by decide
  rw [String.toList_append, String.toList_append, String.toList_append, String.toList_append,
    hopen, hbetween, hclose, stateFields]
  simp only [List.append_assoc, List.cons_append, List.nil_append]

theorem toList_stateJson (w : TestWallet) :
    (stateJson w).toList = '\x7b' :: stateFields w.texts.1.toList w.texts.2.toList :=
  toList_stateText w.texts.1 w.texts.2

/-- The two fields of a snapshot are read. -/
theorem readFields_state {receive change : List Char} (hreceive : ∀ c ∈ receive, c ≠ '"' ∧ c ≠ '\\')
    (hchange : ∀ c ∈ change, c ≠ '"' ∧ c ≠ '\\') :
    readFields 15 (stateFields receive change) =
      some ([("descriptor", .string (String.ofList receive)),
        ("change_descriptor", .string (String.ofList change))], []) := by
  have hkey : ∀ c ∈ "descriptor".toList, c ≠ '"' ∧ c ≠ '\\' :=
    List.forall_iff_forall_mem.mp (by decide)
  have hkey' : ∀ c ∈ "change_descriptor".toList, c ≠ '"' ∧ c ≠ '\\' :=
    List.forall_iff_forall_mem.mp (by decide)
  have hfields : ∀ f ∈ [("descriptor".toList, receive), ("change_descriptor".toList, change)],
      ∀ c ∈ f.1 ++ f.2, c ≠ '"' ∧ c ≠ '\\' := by
    intro f hf
    simp only [List.mem_cons, List.not_mem_nil, or_false] at hf
    rcases hf with rfl | rfl
    · exact List.forall_mem_append.mpr ⟨hkey, hreceive⟩
    · exact List.forall_mem_append.mpr ⟨hkey', hchange⟩
  exact readFields_texts 12 hfields

theorem parse_stateJson {w : TestWallet} (h : OfAccount w) : parseJson (stateJson w) =
    some (.object [("descriptor", .string (String.ofList (accountChars 0))),
      ("change_descriptor", .string (String.ofList (accountChars 1)))]) := by
  have htext := toList_stateJson w
  have hreceive := text_plain text_receive
  have hchange := text_plain text_change
  rw [toList_receive] at hreceive
  rw [toList_change] at hchange
  rw [h.receive, h.change] at htext
  exact parseJson_object htext (readFields_state hreceive hchange)

/-! ## Validation -/

/-- The importer's own list of the two descriptors. -/
def accountList : String := descriptorPairJson receiveText changeText

theorem accountList_rows :
    inputDescriptors env accountList .regtest = .ok [receiveText, changeText] :=
  (inputDescriptors_list descriptorEnv .regtest text_receive text_change).2

/-- A store with the account, and no other wallet. -/
structure HoldsAccount (db : Db TestWallet) (row : WalletRow TestWallet) : Prop where
  wallets : db.wallets = (∅ : Table String (WalletRow TestWallet)).insert walletId row
  state : OfAccount row.state
  name : row.name = "Main"
  network : row.network = Network.regtest.key
  policy : row.policy = Policy.singleSig.key

/-- What `load` makes of the account's row. -/
def loadedAccount (row : WalletRow TestWallet) : Loaded TestWallet TestWallet where
  wallet := row.state
  state := row.state
  summary :=
    { id := walletId
      name := "Main"
      network := .regtest
      policy := .singleSig
      syncedAt := row.syncedAt
      totalSats := none
      availableSats := none }

section Held

variable {db : Db TestWallet} {row : WalletRow TestWallet}

theorem HoldsAccount.get (h : HoldsAccount db row) : db.wallets[walletId]? = some row := by
  rw [h.wallets, Table.get_insert_self]

-- the record of crates is deeper than the default limit
set_option maxRecDepth 2000 in
theorem HoldsAccount.load (h : HoldsAccount db row) :
    load env db walletId = .ok (loadedAccount row) := by
  have hloaded : env.loadWallet .regtest row.state = some row.state := if_pos h.state.network
  rw [Engine.load, h.get, okOr, ok_bind, h.network, Network.parse_key, ok_bind, h.policy,
    Policy.parse_key, ok_bind, hloaded, okOr, ok_bind, h.name, loadedAccount]

-- the record of crates is deeper than the default limit
set_option maxRecDepth 2000 in
/-- The stored account is valid in a backup, whatever else the store holds. -/
theorem HoldsAccount.validateWallet (h : HoldsAccount db row) :
    validateWallet env db walletId row =
      .ok { (loadedAccount row).summary with syncedAt := none } := by
  have hread : env.parseJson = parseJson := rfl
  have htext : env.stateJson = stateJson := rfl
  have hpair : env.descriptorPairJson = descriptorPairJson := rfl
  have hreceive : String.ofList (accountChars 0) = receiveText := rfl
  have hchange : String.ofList (accountChars 1) = changeText := rfl
  have hsize : receiveText.utf8ByteSize ≤ 16384 ∧ changeText.utf8ByteSize ≤ 16384 :=
    ⟨text_receive.size.trans (by decide), text_change.size.trans (by decide)⟩
  have hpreview : Descriptors.previewImport env (descriptorPairJson receiveText changeText) .regtest =
      .ok accountPreview := preview_of_rows accountList_rows
  have hname : trim "Main" ≠ "" ∧ ∀ c ∈ "Main".toList, isControl c = false :=
    ⟨by decide, List.forall_iff_forall_mem.mp (by decide)⟩
  have hexternal : ∀ r c : String,
      ((Json.object [("descriptor", .string r), ("change_descriptor", .string c)]).get
        "descriptor").bind Json.asStr = some r := fun _ _ => rfl
  have hinternal : ∀ r c : String,
      ((Json.object [("descriptor", .string r), ("change_descriptor", .string c)]).get
        "change_descriptor").bind Json.asStr = some c := fun _ _ => rfl
  rw [Backup.validateWallet, hread, htext, hpair, parse_stateJson h.state, okOr, ok_bind, hreceive,
    hchange, hexternal, hinternal, okOr, ok_bind, okOr, ok_bind, require_of hsize, ok_bind, h.network, Network.parse_key, ok_bind, hpreview, ok_bind, h.load,
    ok_bind]
  show (require (trim "Main" ≠ "" ∧ ∀ c ∈ "Main".toList, isControl c = false) _ >>= _) = _
  rw [require_of hname, ok_bind]
  rfl

end Held

/-! ## Restoring a store without drafts -/

theorem toList_singleton {κ ν : Type} [Ord κ] [Std.TransOrd κ] [Std.LawfulEqOrd κ] [DecidableEq κ]
    (k : κ) (v : ν) : ((∅ : Table κ ν).insert k v).toList = [(k, v)] := by
  have hperm : ((∅ : Table κ ν).insert k v).toList.Perm [(k, v)] := by
    refine Table.toList_perm (by simp) fun a u => ?_
    rw [Table.get_insert, List.mem_singleton, Prod.mk.injEq]
    split_ifs with h
    · simp [h, eq_comm]
    · simp [Ne.symm h]
  exact List.perm_singleton.mp hperm

/-- A store with the account and no draft, label or freeze. -/
structure FreshStore (db : Db TestWallet) (row : WalletRow TestWallet) : Prop
    extends HoldsAccount db row where
  others : db = { wallets := db.wallets, syncState := db.syncState }
  syncState : db.syncState.All (fun k _ => k = walletId)

section Fresh

variable {db : Db TestWallet} {row : WalletRow TestWallet}

theorem FreshStore.foreignKeys (h : FreshStore db row) : db.ForeignKeys := by
  have hsync : db.syncState.All (fun k _ => (db.wallets[k]?).isSome) := by
    intro k v hk
    rw [h.syncState k v hk, h.get]
    rfl
  have hempty : ∀ {κ ν : Type} [Ord κ] [Std.TransOrd κ] (p : κ → ν → Prop), (∅ : Table κ ν).All p := by
    intro κ ν _ _ p k v hk
    rw [Std.ExtTreeMap.getElem?_empty] at hk
    cases hk
  unfold Db.ForeignKeys
  rw [h.others]
  exact ⟨hempty _, hempty _, hempty _, hempty _, hsync, hempty _, hempty _, hempty _, hempty _,
    hempty _, hempty _, hempty _, hempty _⟩

-- the record of crates is deeper than the default limit
set_option maxRecDepth 2000 in
theorem schemaRows_bounded : boundedSchema (env.schemaRows schemaVersion) =
    .ok (env.schemaRows schemaVersion) := by
  have hrows : env.schemaRows schemaVersion = schemaRows 8 := rfl
  have hnames : (tableNames 8).Forall (fun name => name.length ≤ 128) := by decide
  have hlead : "CREATE TABLE ".length = 13 := by decide
  have hbounded : (schemaRows 8).length ≤ 128 ∧ ∀ row ∈ schemaRows 8,
      (row.sql.map String.length).getD 0 ≤ 65536 ∧ row.name.length ≤ 128 ∧
        row.tableName.length ≤ 128 := by
    refine ⟨by decide, fun row hrow => ?_⟩
    obtain ⟨name, hmem, rfl⟩ := List.mem_map.mp hrow
    have hname := List.forall_iff_forall_mem.mp hnames name hmem
    rw [Option.map_some, Option.getD_some, String.length_append, hlead]
    exact ⟨by omega, hname, hname⟩
  rw [hrows, boundedSchema, require_of hbounded, ok_bind]

theorem stateText_size {receive change : String} (hr : receive.utf8ByteSize ≤ 9745)
    (hc : change.utf8ByteSize ≤ 9745) :
    ("\x7b\"descriptor\":\"" ++ receive ++ "\",\"change_descriptor\":\"" ++ change ++
      "\"\x7d").utf8ByteSize ≤ maxStateBytes := by
  have hopen : "\x7b\"descriptor\":\"".utf8ByteSize = 15 := by decide
  have hbetween : "\",\"change_descriptor\":\"".utf8ByteSize = 23 := by decide
  have hclose : "\"\x7d".utf8ByteSize = 2 := by decide
  simp only [String.utf8ByteSize_append, hopen, hbetween, hclose, maxStateBytes]
  omega

/-- The text of a snapshot is small. -/
theorem OfAccount.size {w : TestWallet} (h : OfAccount w) :
    (stateJson w).utf8ByteSize ≤ maxStateBytes := by
  have hreceive : w.texts.1 = receiveText := by
    rw [← String.toList_inj, h.receive, toList_receive]
  have hchange : w.texts.2 = changeText := by
    rw [← String.toList_inj, h.change, toList_change]
  refine @stateText_size w.texts.1 w.texts.2 ?_ ?_
  · rw [hreceive]
    exact text_receive.size
  · rw [hchange]
    exact text_change.size

theorem FreshStore.validate (h : FreshStore db row) (now : Nat)
    (hsize : (env.stateJson row.state).utf8ByteSize ≤ maxStateBytes) :
    validate env (exportedImage env db now) =
      .ok { createdAt := now
            wallets := [{ (loadedAccount row).summary with syncedAt := none }]
            drafts := db.drafts.size
            submissions := db.broadcastAttempts.size } := by
  have hversion : (exportedImage env db now).applicationId = applicationId ∧
      7 ≤ (exportedImage env db now).userVersion ∧
      (exportedImage env db now).userVersion ≤ schemaVersion := by
    simp [exportedImage, schemaVersion]
  have hdrafts : db.drafts = ∅ := by
    rw [h.others]
  have hattempts : db.broadcastAttempts = ∅ := by
    rw [h.others]
  have hintegrity : integrity (exportedImage env db now) = .ok () :=
    require_of ⟨rfl, h.foreignKeys⟩
  have hwallets : db.wallets.toList = [(walletId, row)] := by
    rw [h.wallets, toList_singleton]
  have hcount : db.wallets.size ≤ 1000 := by
    rw [← Std.ExtTreeMap.length_toList, hwallets, List.length_singleton]
    omega
  have hlimits : db.drafts.size ≤ 10000 ∧ excessiveAttempts db = false := by
    rw [excessiveAttempts, hdrafts, hattempts]
    exact ⟨by decide, rfl⟩
  have hstates : db.wallets.anyRow (fun _ row =>
      maxStateBytes < (env.stateJson row.state).utf8ByteSize) = false := by
    rw [Table.anyRow, hwallets]
    simp only [List.any_cons, List.any_nil, Bool.or_false, decide_eq_false_iff_not]
    exact Nat.not_lt.mpr hsize
  have hrows : (walletRows db).mapM (fun row => Backup.validateWallet env db row.1 row.2) =
      .ok [{ (loadedAccount row).summary with syncedAt := none }] := by
    rw [walletRows, hwallets]
    show (do
      let a ← Backup.validateWallet env db walletId row
      .ok [a]) = _
    rw [h.toHoldsAccount.validateWallet, ok_bind]
  have hschema : boundedSchema (exportedImage env db now).schema =
      .ok (env.schemaRows schemaVersion) := schemaRows_bounded
  have hexpected : boundedSchema (env.schemaRows (exportedImage env db now).userVersion) =
      .ok (env.schemaRows schemaVersion) := schemaRows_bounded
  have hmanifest : (exportedImage env db now).manifest = some now := rfl
  have himage : (exportedImage env db now).db = db := rfl
  unfold Backup.validate
  rw [require_of hversion, ok_bind, hschema, ok_bind, hexpected, ok_bind, require_of rfl, ok_bind,
    hintegrity, ok_bind, hmanifest, okOr, ok_bind, himage, require_of hcount, ok_bind,
    require_of hlimits, ok_bind, require_of hstates, ok_bind, hrows, ok_bind]

/-- What a restore leaves of the account's row. -/
def unsynced (row : WalletRow TestWallet) : WalletRow TestWallet := { row with syncedAt := none }

/-- The restored store. -/
def suspendedStore (db : Db TestWallet) (row : WalletRow TestWallet) : Db TestWallet where
  wallets := (∅ : Table String (WalletRow TestWallet)).insert walletId (unsynced row)
  syncState := db.syncState

-- the record of crates is deeper than the default limit
set_option maxRecDepth 2000 in
theorem FreshStore.restore (h : FreshStore db row) (now : Nat)
    (hsize : (env.stateJson row.state).utf8ByteSize ≤ maxStateBytes) :
    System.exportRestore env db now = .ok ((), suspendedStore db row) ∧
      FreshStore (suspendedStore db row) (unsynced row) := by
  have hlabels : db.labels = ∅ := by
    rw [h.others]
  have hfreezes : db.freezes = ∅ := by
    rw [h.others]
  have hdrafts : db.drafts = ∅ := by
    rw [h.others]
  -- The suspended store: the row without its time, and nothing else changed.
  have hsuspend : Recovery.suspend env db = .ok (suspendedStore db row) := by
    have hover : Recovery.oversized db = false := by
      rw [h.others]
      rfl
    have hkeys : Recovery.draftKeys db = [] := by
      rw [Recovery.draftKeys, hdrafts]
      rfl
    have hclear : Recovery.clearReservations db =
        { wallets := db.wallets, syncState := db.syncState } := by
      rw [h.others]
      rfl
    have hupdate : db.wallets.updateAll (fun _ row => { row with syncedAt := none }) =
        (∅ : Table String (WalletRow TestWallet)).insert walletId (unsynced row) := by
      apply Table.ext
      intro k
      rw [Table.get_updateAll, h.wallets, Table.get_insert, Table.get_insert]
      split_ifs
      · rfl
      · rw [Std.ExtTreeMap.getElem?_empty]
        rfl
    rw [Recovery.suspend, hlabels, hfreezes, require_of hover, hkeys, hclear]
    show Except.ok _ = _
    rw [suspendedStore, ← hupdate]
  have hfresh : FreshStore (suspendedStore db row) (unsynced row) :=
    { wallets := rfl
      state := h.state
      name := h.name
      network := h.network
      policy := h.policy
      others := rfl
      syncState := h.syncState }
  have hintegrity : integrity (restoredImage (exportedImage env db now) (suspendedStore db row)) =
      .ok () := require_of ⟨rfl, hfresh.foreignKeys⟩
  have hunsynced : (suspendedStore db row).wallets.anyRow (fun _ row => row.syncedAt ≠ none) =
      false := by
    rw [suspendedStore, Table.anyRow, toList_singleton]
    rfl
  have hmigrate : migrate (exportedImage env db now).userVersion (exportedImage env db now).db = db :=
    if_neg (by simp [exportedImage, schemaVersion])
  have houtput : (restoredImage (exportedImage env db now) (suspendedStore db row)).db =
      suspendedStore db row := rfl
  refine ⟨?_, hfresh⟩
  unfold System.exportRestore restoreImage
  rw [h.validate now hsize, ok_bind, hmigrate, hsuspend, ok_bind, ok_bind]
  dsimp only
  have hloads : checkAll (fun (wallet : WalletSummary) => do
      let _ ← Engine.load env (suspendedStore db row) wallet.id)
      [{ (loadedAccount row).summary with syncedAt := none }] = .ok () := by
    refine checkAll_eq_ok.mpr fun wallet hwallet => ?_
    rw [List.mem_singleton.mp hwallet]
    exact bind_eq_ok.mpr ⟨_, hfresh.load, rfl⟩
  rw [hintegrity, ok_bind, houtput, require_of hunsynced, ok_bind, hloads, ok_bind, ok_bind]
  rfl

end Fresh

end Fixture
end Tundra
