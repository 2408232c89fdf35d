/-
  Tundra.Engine

  Loading and saving a wallet, its coins, and the operations of `engine.rs`:
  import, address reveal, labels, freezes, label files, and the creation and
  discard of drafts.  An operation takes the database and returns its result
  with the database it commits; when it fails nothing is committed.
-/

import Tundra.Schema
import Tundra.Labels
import Tundra.Descriptor
import Tundra.Signing.Response

namespace Tundra
namespace Engine

open Checked Relational

variable {State Wallet Scan : Type} (env : Env State Wallet Scan)

/-! ## Loading -/

/-- `Loaded`: a wallet, the snapshot it was loaded from, and its summary. -/
structure Loaded (State Wallet : Type) where
  wallet : Wallet
  state : State
  summary : WalletSummary

/-- The name of a wallet: not blank, at most `max` characters, no control characters. -/
def text (s : String) (max : Nat) : Result Unit :=
  require (trim s ≠ "" ∧ s.length ≤ max ∧ ∀ c ∈ s.toList, isControl c = false)
    (.invalidInput "name")

def outpoint (s : String) : Result OutPoint :=
  okOr (env.parseOutPoint s) (.invalidInput "outpoint")

def load (db : Db State) (id : String) : Result (Loaded State Wallet) := do
  let row ← okOr db.wallets[id]? .notFound
  let network ← Network.parse row.network
  let policy ← Policy.parse row.policy
  let wallet ← okOr (env.loadWallet network row.state) .corruptState
  .ok
    { wallet
      state := row.state
      summary :=
        { id
          name := row.name
          network
          policy
          syncedAt := row.syncedAt
          totalSats := none
          availableSats := none } }

/-- Store the changes staged in a loaded wallet. -/
def save (db : Db State) (id : String) (l : Loaded State Wallet) : Db State :=
  db.updateState id (env.savedState l.state l.wallet)

/-- `json(&review)`: the text of a review. -/
def reviewText (r : DraftReview) : ReviewJson where
  length := env.reviewJsonLength r
  parsed := some r

/-- `from_json` of a review column. -/
def parseReview (value : ReviewJson) : Result DraftReview :=
  okOr value.parsed .corruptState

/-! ## Coins -/

def getLabel (db : Db State) (id : String) (kind : LabelKind) (reference : String) : String :=
  (db.labels[(id, kind, reference)]?).getD ""

/-- A confirmed output, 100 blocks deep when it is a coinbase. -/
def spendable (position : ChainPosition) (tip : Nat) (coinbase : Bool) : Bool :=
  match position with
  | .confirmed height => !coinbase || 100 ≤ tip - height + 1
  | .unconfirmed _ => false

def isConfirmed : ChainPosition → Bool
  | .confirmed _ => true
  | .unconfirmed _ => false

/-- Does the wallet know the transaction as a coinbase? -/
def isCoinbaseTx (w : Wallet) (txid : Txid) : Bool :=
  (env.getTx w txid).any (fun tx => env.isCoinbase tx.tx)

def coinStatus (db : Db State) (id : String) (w : Wallet) (c : LocalOutput) : CoinStatus :=
  if db.isFrozen id (env.displayOutPoint c.outpoint) then .frozen
  else if db.isReserved id (env.displayOutPoint c.outpoint) then .reserved
  else if !isConfirmed c.chainPosition then .pending
  else if isCoinbaseTx env w c.outpoint.txid &&
      !spendable c.chainPosition (env.tipHeight w) true then .immature
  else .available

def coinOf (db : Db State) (id : String) (w : Wallet) (c : LocalOutput) : Result Coin := do
  let address ← okOr (env.addressFromScript (env.walletNetwork w) c.txout.scriptPubkey)
    .corruptState
  .ok
    { outpoint := env.displayOutPoint c.outpoint
      sats := c.txout.value
      label := getLabel db id .output (env.displayOutPoint c.outpoint)
      address
      status := coinStatus env db id w c }

/-- The unspent outputs of a wallet, in the order of their texts. -/
def walletCoins (db : Db State) (id : String) (w : Wallet) : Result (List Coin) := do
  let out ← (env.listUnspent w).mapM (coinOf env db id w)
  .ok (out.insertionSort (fun a b => a.outpoint ≤ b.outpoint))

def coins (db : Db State) (id : String) : Result (List Coin) := do
  let l ← load env db id
  walletCoins env db id l.wallet

/-- The wallet's transactions with their labels, as the history shows them.  The
    amounts are cast and subtracted as `i64`, in a build that wraps. -/
def activity (db : Db State) (id : String) : Result (List Activity) := do
  let l ← load env db id
  .ok ((env.listTransactions l.wallet).map (fun t =>
    { txid := env.displayTxid (env.computeTxid t.tx)
      label := getLabel db id .tx (env.displayTxid (env.computeTxid t.tx))
      deltaSats := ((env.sentAndReceived l.wallet t.tx).2.toInt64 -
        (env.sentAndReceived l.wallet t.tx).1.toInt64).toInt
      confirmed := isConfirmed t.chainPosition }))

/-! ## Import and addresses -/

/-- Does a stored two-of-three wallet describe the same policy? -/
def sameWallet (db : Db State) (p : ImportPreview) (id : String) : Result Bool := do
  let existing ← load env db id
  .ok (env.displayDescriptor (Descriptors.canonicalDescriptor env
      (env.publicDescriptor existing.wallet .external)) = p.receiveDescriptor ∧
    env.displayDescriptor (Descriptors.canonicalDescriptor env
      (env.publicDescriptor existing.wallet .internal)) = p.changeDescriptor)

/-- Refuse a wallet that an older identity already stands for. -/
def checkEquivalent (db : Db State) (p : ImportPreview) : Result Unit :=
  if p.policy = .twoOfThree then
    checkAll (fun row => do
      let same ← sameWallet env db p row.1
      require (same = false) .alreadyExists)
      (db.wallets.selectRows (fun _ row =>
        row.network = p.network.key ∧ row.policy = p.policy.key))
  else .ok ()

def importWallet (db : Db State) (name payload : String) (network : Network) (now : Nat) :
    Result (WalletSummary × Db State) := do
  text name 80
  let p ← Descriptors.previewImport env payload network
  require (db.wallets[p.id]? = none) .alreadyExists
  checkEquivalent env db p
  let wallet ← okOr (env.createWallet network p.receiveDescriptor p.changeDescriptor) .descriptor
  let state ← okOr (env.takeStaged wallet) .corruptState
  let row :=
    { name := trim name
      network := network.key
      policy := p.policy.key
      state
      syncedAt := none
      createdAt := now }
  .ok
    ({ id := p.id
       name := trim name
       network
       policy := p.policy
       syncedAt := none
       totalSats := none
       availableSats := none },
      { db with wallets := db.wallets.insert p.id row })

def receiveAddress (db : Db State) (id : String) : Result (ReceiveAddress × Db State) := do
  let l ← load env db id
  let (info, wallet) := env.revealNextAddress l.wallet .external
  .ok ({ address := info.address, index := info.index, hardwareVerified := false },
    save env db id { l with wallet })

/-! ## Labels and freezes -/

/-- Is the reference one of the wallet's outputs, transactions or addresses? -/
def knownReference (w : Wallet) (kind : LabelKind) (reference : String) : Bool :=
  match kind with
  | .output => (env.parseOutPoint reference).any (fun op => op ∈ env.listOutput w)
  | .tx => (env.parseTxid reference).any (fun txid => (env.getTx w txid).isSome)
  | .addr =>
      ((env.parseAddress reference).bind (fun require => require (env.walletNetwork w))).any
        (env.isMine w)

/-- `kind` is the caller's text; an unknown kind is an unknown reference. -/
def setLabel (db : Db State) (id kind reference label : String) : Result (Unit × Db State) := do
  Labels.validateLabel label
  let l ← load env db id
  let kind ← okOr (LabelKind.parse kind) .notFound
  require (knownReference env l.wallet kind reference = true) .notFound
  .ok ((), db.putLabel id kind reference label)

def setFrozen (db : Db State) (id reference : String) (frozen : Bool) :
    Result (Unit × Db State) := do
  let op ← outpoint env reference
  let l ← load env db id
  require ((env.listUnspent l.wallet).any (fun c => c.outpoint = op) = true) .notFound
  .ok ((), db.setFreeze id (env.displayOutPoint op) frozen)

/-- The metadata change of one coin. -/
def editCoin (id : String) (label : Option String) (frozen : Option Bool) (db : Db State)
    (reference : String) : Db State :=
  let db := match label with
    | some label => db.putLabel id .output reference label
    | none => db
  match frozen with
  | some frozen => db.setFreeze id reference frozen
  | none => db

/-- All-or-nothing metadata changes of 1 to 200 coins. -/
def editCoins (db : Db State) (id : String) (references : List String) (label : Option String)
    (frozen : Option Bool) : Result (Unit × Db State) := do
  require (references ≠ [] ∧ references.length ≤ 200 ∧ (label ≠ none ∨ frozen ≠ none))
    (.invalidInput "select 1–200 coins and a metadata change")
  match label with
  | some label => Labels.validateLabel label
  | none => .ok ()
  let l ← load env db id
  let known := (env.listUnspent l.wallet).map (fun c => env.displayOutPoint c.outpoint)
  require references.Nodup (.invalidInput "duplicate outpoint")
  require (∀ reference ∈ references, reference ∈ known) .unavailableCoin
  .ok ((), references.foldl (editCoin id label frozen) db)

/-- The change one matching record makes, and whether it is one.  The rows
    are written only when `apply` is on. -/
def applyRecord (apply : Bool) (db : Db State) (id : String) (r : Labels.LabelRecord) :
    Bool × Db State :=
  let labelDiffers := r.label.any (fun label => getLabel db id r.kind r.reference ≠ label)
  let db' := match r.label with
    | some label => if apply then db.putLabel id r.kind r.reference label else db
    | none => db
  let freezeDiffers := r.spendable.any (fun s => db'.isFrozen id r.reference = s)
  let db'' := match r.spendable with
    | some s => if apply then db'.setFreeze id r.reference (!s) else db'
    | none => db'
  (labelDiffers || freezeDiffers, db'')

/-- Does a record belong to another wallet, or name nothing of this one? -/
def recordMatches (w : Wallet) (origin : String) (r : Labels.LabelRecord) : Bool :=
  (r.origin.all (fun o => Descriptors.normalizeLabelOrigin env o = some origin)) &&
    knownReference env w r.kind r.reference

/-- The records of a label file, one after the other. -/
def importRecords (apply : Bool) (id : String) (w : Wallet) (origin : String) :
    List Labels.LabelRecord → List (LabelKind × String) → Labels.LabelPreview → Db State →
    Result (Labels.LabelPreview × Db State)
  | [], _, preview, db => .ok (preview, db)
  | r :: rest, seen, preview, db =>
      if recordMatches env w origin r then do
        require ((r.kind, r.reference) ∉ seen)
          (.invalidInput "duplicate matching label reference")
        let (differs, db') := applyRecord apply db id r
        importRecords apply id w origin rest ((r.kind, r.reference) :: seen)
          { preview with
            matched := preview.matched + 1
            changed := preview.changed + (if differs then 1 else 0) } db'
      else
        importRecords apply id w origin rest seen { preview with skipped := preview.skipped + 1 } db

/-- `import_labels`: with `apply` off nothing is committed. -/
def importLabels (db : Db State) (id payload : String) (apply : Bool) :
    Result (Labels.LabelPreview × Db State) := do
  let (records, skipped) ← Labels.parseLabels env payload
  let l ← load env db id
  let origin ← Descriptors.labelOrigin env (env.publicDescriptor l.wallet .external)
  let (preview, db') ← importRecords env apply id l.wallet origin records []
    { matched := 0, skipped, changed := 0 } db
  .ok (preview, if apply then db' else db)

/-- The records of an export: one for each label, and one for each freeze whose
    output has none.  A freeze marks the record of its output. -/
def exportRecords (db : Db State) (id origin : String) :
    Table (LabelKind × String) Labels.LabelRecord :=
  let labelled := (db.labels.selectRows (fun k _ => k.1 = id)).foldl (fun t row =>
    t.insert row.1.2
      { kind := row.1.2.1
        reference := row.1.2.2
        label := some row.2
        spendable := none
        origin := some origin }) (∅ : Table (LabelKind × String) Labels.LabelRecord)
  (db.freezes.selectRows (fun k _ => k.1 = id)).foldl (fun t row =>
    t.insert (.output, row.1.2)
      { (t[(LabelKind.output, row.1.2)]?).getD
          { kind := .output
            reference := row.1.2
            label := none
            spendable := none
            origin := some origin } with spendable := some false }) labelled

/-- `export_labels`: a patch, in which the absence of a freeze says nothing. -/
def exportLabels (db : Db State) (id : String) : Result String := do
  let l ← load env db id
  let origin ← Descriptors.labelOrigin env (env.publicDescriptor l.wallet .external)
  let lines := (exportRecords db id origin).toList.map (fun row => Labels.recordJson row.2)
  .ok (if lines = [] then "" else String.intercalate "\n" lines ++ "\n")

/-! ## Drafts -/

def maxSats : UInt64 := 2100000000000000

/-- The selected outpoints of a request, each an available coin. -/
def selectCoins (available : List Coin) (selected : Option (List String)) :
    Result (Option (List OutPoint)) :=
  match selected with
  | none => .ok none
  | some ids => do
      require (ids ≠ [] ∧ ids.length ≤ 200) (.invalidInput "select 1–200 coins")
      require ids.Nodup (.invalidInput "duplicate outpoint")
      let ops ← ids.mapM (fun id => do
        require (∃ c ∈ available, c.outpoint = id) .unavailableCoin
        outpoint env id)
      .ok (some ops)

/-- The script of a recipient address on the wallet's network. -/
def recipientScript (address : String) (network : Network) : Result Script := do
  let require ← okOr (env.parseAddress address) (.invalidInput "recipient address")
  okOr (require network) .networkMismatch

/-- Where the payment goes; a consolidation reveals a fresh change address. -/
def paymentTarget (l : Loaded State Wallet) (payment : Payment)
    (selected : Option (List OutPoint)) : Result (Script × Wallet) :=
  match payment with
  | .consolidate acknowledged => do
      require (acknowledged = true)
        (.invalidInput "acknowledge that consolidation links these coins")
      require (2 ≤ (selected.map List.length).getD 0)
        (.invalidInput "select at least two coins to consolidate")
      let (info, wallet) := env.revealNextAddress l.wallet .internal
      .ok (info.scriptPubkey, wallet)
  | .send address sats => do
      require (sats ≠ 0 ∧ sats ≤ maxSats) (.invalidInput "payment amount")
      let script ← recipientScript env address l.summary.network
      .ok (script, l.wallet)
  | .sendMax address => do
      require (selected ≠ none) (.invalidInput "maximum requires explicit coin selection")
      let script ← recipientScript env address l.summary.network
      .ok (script, l.wallet)

/-- Run the transaction builder; the wallet it leaves may have revealed a change address. -/
def buildPsbt (seed : Nat) (wallet : Wallet) (params : BuildParams) : Result (BuiltTx × Wallet) := do
  require (params.selected.all (env.addUtxos wallet) = true) .unavailableCoin
  let built ← okOr (env.finishTx seed wallet params) .cannotBuild
  .ok (built,
    if built.revealsChange then (env.revealNextAddress wallet .internal).2 else wallet)

def isConsolidation : Payment → Bool
  | .consolidate _ => true
  | _ => false

def buildTarget (payment : Payment) (script : Script) : BuildTarget :=
  match payment with
  | .send _ sats => .addRecipient script sats
  | _ => .drainTo script

def reviewInput (available : List Coin) (txin : TxIn) : Result ReviewedInput := do
  let coin ← okOr (available.find? (fun c => c.outpoint = env.displayOutPoint txin.previousOutput))
    .unavailableCoin
  .ok { outpoint := env.displayOutPoint txin.previousOutput, sats := coin.sats, label := coin.label }

def reviewOutput (wallet : Wallet) (network : Network) (consolidate : Bool) (target : Script)
    (output : TxOut) : Result ReviewedOutput := do
  let address ← okOr (env.addressFromScript network output.scriptPubkey) .corruptState
  .ok
    { address
      sats := output.value
      isChange := !consolidate && output.scriptPubkey ≠ target &&
        env.isMine wallet output.scriptPubkey
      isMine := env.isMine wallet output.scriptPubkey }

/-- The id of a draft: the hash of its wallet and its transaction. -/
def draftIdentity (walletId : String) (tx : Transaction) : String :=
  env.sha256Hex (walletId ++ ":" ++ env.displayTxid (env.computeTxid tx))

/-- The outpoints of coins that are not available. -/
def excludedOutpoints (cs : List Coin) : Result (List OutPoint) :=
  (cs.filter (fun c => c.status ≠ .available)).mapM (fun c => outpoint env c.outpoint)

/-- The PSBT and review of a request, and the wallet after building it. -/
def planDraft (db : Db State) (l : Loaded State Wallet) (request : DraftRequest) (seed : Nat) :
    Result (Psbt × DraftReview × Wallet) := do
  let cs ← walletCoins env db request.walletId l.wallet
  let available := cs.filter (fun c => c.status = .available)
  let selected ← selectCoins env available request.selectedOutpoints
  let consolidate := isConsolidation request.payment
  let (target, wallet) ← paymentTarget env l request.payment selected
  let unspendable ← excludedOutpoints env cs
  let (built, wallet) ← buildPsbt env seed wallet
    { feeSatPerKwu := request.feeSatPerKwu
      unspendable
      selected
      target := buildTarget request.payment target }
  let psbt := built.psbt
  let _ ← orError (Signing.parseResponse env (env.serializePsbt psbt))
    (.invalidInput "transaction exceeds signing payload limits")
  let actual := psbt.unsignedTx.previousOutputs
  require (selected.all (fun chosen => (∀ op ∈ actual, op ∈ chosen) ∧ ∀ op ∈ chosen, op ∈ actual))
    .corruptState
  let inputs ← psbt.unsignedTx.input.mapM (reviewInput env available)
  let outputs ← psbt.unsignedTx.output.mapM
    (reviewOutput env wallet l.summary.network consolidate target)
  require (consolidate = true → outputs.length = 1 ∧ ∀ o ∈ outputs.head?, o.isMine = true)
    .corruptState
  let fee ← okOr (env.calculateFee wallet psbt.unsignedTx) .corruptState
  require (fee ≤ 1000000) (.invalidInput "fee exceeds the development safety cap")
  .ok (psbt,
    { id := draftIdentity env request.walletId psbt.unsignedTx
      walletId := request.walletId
      inputs
      outputs
      feeSats := fee
      feeSatPerKwu := some request.feeSatPerKwu
      label := request.label
      isConsolidation := consolidate
      state := .unsigned },
    wallet)

/-- Insert a reservation for every input of a review. -/
def insertReservations (w d : String) (inputs : List ReviewedInput) (db : Db State) :
    Result (Db State) :=
  inputs.foldlM (fun db input => db.insertReservation w input.outpoint d) db

/-- `create_draft`.  The draft, its reservations and the revealed addresses
    are committed together. -/
def createDraft (db : Db State) (request : DraftRequest) (seed now : Nat) :
    Result (DraftReview × Db State) := do
  Labels.validateLabel request.label
  require (1 ≤ request.feeSatPerKwu ∧ request.feeSatPerKwu ≤ 250000)
    (.invalidInput "fee rate must be 1–250000 sat/kwu")
  let l ← load env db request.walletId
  require (l.summary.network ≠ .mainnet) (.unavailable "mainnet spending")
  require (l.summary.syncedAt ≠ none) (.unavailable "blockchain synchronization")
  let (psbt, review, wallet) ← planDraft env db l request seed
  let db ← db.insertDraft review.id
    { walletId := request.walletId
      psbt := env.psbtText psbt
      reviewJson := reviewText env review
      label := request.label
      createdAt := now }
  let db ← insertReservations request.walletId review.id review.inputs db
  .ok (review, save env db request.walletId { l with wallet })

/-- `discard_draft`: refused once a broadcast attempt is recorded. -/
def discardDraft (db : Db State) (id draftId : String) : Result (Unit × Db State) := do
  require (db.submitted id draftId = false) (.invalidInput
    "a submission record cannot be discarded; the transaction may already be broadcast")
  require ((db.selectDraft id draftId).isSome) .notFound
  .ok ((), db.deleteDraft id draftId)

/-- The reviews of a wallet's drafts, ordered by creation time and id. -/
def drafts (db : Db State) (id : String) : Result (List DraftReview) := do
  let _ ← load env db id
  let rows := db.drafts.selectRows (fun _ row => row.walletId = id)
  (rows.insertionSort (fun a b => a.2.createdAt ≤ b.2.createdAt)).mapM (fun row =>
    parseReview row.2.reviewJson)

def exportUnsignedPsbt (db : Db State) (id draftId : String) : Result Bytes := do
  let row ← okOr (db.selectDraft id draftId) .notFound
  let review ← parseReview row.reviewJson
  require (review.state = .unsigned) .unavailableCoin
  .ok row.psbt

end Engine
end Tundra
