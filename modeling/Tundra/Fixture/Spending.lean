/-
  Tundra.Fixture.Spending

  The fixture's account with its funding output confirmed, and a draft that
  spends it: to somebody else, or to the wallet's receive script at index 26,
  which the wallet does not recognise yet.  The witness of the funding
  transaction is arbitrary, so the approved PSBT can have any size.
-/

import Tundra.Fixture.Synced
import Tundra.Signing.Loaded

namespace Tundra
namespace Fixture

open Ascii Wire Relational Checked Engine Signing

/-! ## The confirmed funding output -/

/-- The block that confirms the funding transaction. -/
def confirmingHash : BlockHash := leBytes 32 0x66

def confirmedBlocks : Table Nat BlockHash :=
  ((∅ : Table Nat BlockHash).insert 0 (genesisHash .regtest)).insert 102 confirmingHash

def fundingAnchor : ConfirmationBlockTime × Txid :=
  ({ height := 102, hash := confirmingHash, confirmationTime := 900 }, fundingId)

/-- What a scan finds once the funding transaction is confirmed. -/
def confirmedScan (stack : List Bytes) : ChainScan where
  blocks := confirmedBlocks
  update :=
    { txs := [fundingTx stack]
      anchors := [fundingAnchor]
      lastActiveIndices := [(.external, 0)] }

def fundingOutput : OutPoint where
  txid := fundingId
  vout := 0

/-- The funding output as the wallet holds it. -/
def fundingCoin : LocalOutput where
  outpoint := fundingOutput
  txout := { value := 100000, scriptPubkey := receiveScript }
  chainPosition := .confirmed 102

/-- The wallet after that scan. -/
def fundedWallet (stack : List Bytes) : TestWallet :=
  { revealedWallet with
    chain := confirmedBlocks
    graph := [(fundingId, fundingTx stack)]
    anchors := [fundingAnchor]
    unspent := [fundingCoin]
    outputs := [fundingOutput] }

theorem fundingId_eq (stack : List Bytes) : computeTxid (fundingTx stack) = fundingId := rfl

theorem funded_position (stack : List Bytes) :
    (fundedWallet stack).position fundingId = some (.confirmed 102) := by
  have hposition : (fundedWallet stack).position fundingId =
      (fundedWallet []).position fundingId := rfl
  rw [hposition]
  decide

theorem funded_canonical (stack : List Bytes) :
    (fundedWallet stack).canonical =
      [(fundingId, { tx := fundingTx stack, chainPosition := .confirmed 102 })] := by
  have hgraph : (fundedWallet stack).graph = [(fundingId, fundingTx stack)] := rfl
  rw [TestWallet.canonical, hgraph, List.filterMap_cons_some (b := (fundingId,
    { tx := fundingTx stack, chainPosition := .confirmed 102 }))]
  · rfl
  · rw [funded_position]
    rfl

theorem funded_reindex (stack : List Bytes) : (fundedWallet stack).reindex = fundedWallet stack := by
  have hown : (fundedWallet stack).ownOutputs
      (fundingId, { tx := fundingTx stack, chainPosition := .confirmed 102 }) = [fundingCoin] := by
    have hempty : (fundedWallet stack).ownOutputs
        (fundingId, { tx := fundingTx stack, chainPosition := .confirmed 102 }) =
        (fundedWallet []).ownOutputs
          (fundingId, { tx := fundingTx [], chainPosition := .confirmed 102 }) := rfl
    rw [hempty]
    decide
  have hspent : fundingCoin.outpoint ∉ (fundingTx stack).previousOutputs := by
    have hempty : (fundingTx stack).previousOutputs = (fundingTx []).previousOutputs := rfl
    rw [hempty]
    decide
  rw [TestWallet.reindex, funded_canonical, List.flatMap_singleton, List.flatMap_singleton, hown]
  rw [List.filter_cons_of_pos (by simpa using hspent)]
  rfl

theorem apply_confirmed (stack : List Bytes) :
    (onChain importedWallet (confirmedScan stack)).applyUpdate computeTxid (confirmedScan stack) =
      some (fundedWallet stack) := by
  have hchain : ¬ (onChain importedWallet (confirmedScan stack)).chain.isEmpty := by
    have hblocks : (onChain importedWallet (confirmedScan stack)).chain = confirmedBlocks := rfl
    rw [hblocks]
    decide
  rw [TestWallet.applyUpdate, if_neg hchain]
  have hrevealed : (onChain importedWallet (confirmedScan stack)).revealActive [(.external, 0)] =
      { revealedWallet with chain := confirmedBlocks } := rfl
  have hnew : (onChain importedWallet (confirmedScan stack)).newTxs computeTxid [fundingTx stack] =
      [(fundingId, fundingTx stack)] := rfl
  show some (TestWallet.reindex { ((onChain importedWallet (confirmedScan stack)).revealActive
    [(.external, 0)]) with
      graph := [] ++ (onChain importedWallet (confirmedScan stack)).newTxs computeTxid
        [fundingTx stack]
      anchors := [fundingAnchor] }) = _
  rw [hrevealed, hnew, ← funded_reindex]
  rfl

/-! ## The payment -/

/-- The wallet with its first change address revealed. -/
def spentWallet (stack : List Bytes) : TestWallet := ((fundedWallet stack).revealNext .internal).2

/-- The approved PSBT of a payment of 60,000 sats to a script. -/
def paymentPsbt (script : Script) (stack : List Bytes) : Psbt :=
  buildPsbt (spentWallet stack) [fundingCoin] (paymentTx script []).output

/-- A recipient the fixture's wallet can pay and does not recognise. -/
structure Payable (script : Script) (address : String) : Prop where
  display : addresses.lookup script = some address
  parse : (addresses.map (fun row => (row.2, row.1))).lookup address = some script
  foreign : (revealedWallet.revealNext .internal).2.derivationOfSpk script = none
  external : script ≠ changeScript

def payeeAddress : String := "bcrt1q9p2k3zlusgj2mj7kz3cxgmqtkhpk0ujpjmqahv"

/-- The address of the hidden script. -/
def hiddenAddress : String := "bcrt1qydcts24ledme8gks0acpe7gud7jdz3mlhstgq6"

theorem payee_payable : Payable payeeScript payeeAddress := by
  constructor <;> decide

theorem hidden_payable : Payable hiddenScript hiddenAddress := by
  constructor <;> decide

/-- The wallet knows the funding output and its own two scripts. -/
structure KnowsFunding (stack : List Bytes) (w : TestWallet) : Prop where
  unspent : w.listUnspent = [fundingCoin]
  funding : w.getTx fundingId =
    some { tx := fundingTx stack, chainPosition := .confirmed 102 }
  tip : w.tipHeight = 102
  network : w.network = .regtest
  descriptors : w.external = accountDescriptor 0 ∧ w.internal = accountDescriptor 1
  receive : w.derivationOfSpk receiveScript = some (.external, 0)
  change : w.derivationOfSpk changeScript = some (.internal, 0)

theorem tip_confirmed : (confirmedBlocks.toList.getLast?.map Prod.fst).getD 0 = 102 := by
  decide

theorem funded_knows (stack : List Bytes) : KnowsFunding stack (fundedWallet stack) where
  unspent := rfl
  funding := by
    rw [TestWallet.getTx, funded_canonical, List.lookup_cons_self]
  tip := tip_confirmed
  network := rfl
  descriptors := ⟨rfl, rfl⟩
  receive := by
    have hrecognised : (fundedWallet stack).derivationOfSpk receiveScript =
      revealedWallet.derivationOfSpk receiveScript := rfl
    rw [hrecognised]
    decide
  change := by
    have hrecognised : (fundedWallet stack).derivationOfSpk changeScript =
      revealedWallet.derivationOfSpk changeScript := rfl
    rw [hrecognised]
    decide

theorem KnowsFunding.reveal {stack : List Bytes} {w : TestWallet} (h : KnowsFunding stack w)
    (k : KeychainKind) : KnowsFunding stack (w.revealNext k).2 where
  unspent := by cases k <;> exact h.unspent
  funding := by cases k <;> exact h.funding
  tip := by cases k <;> exact h.tip
  network := (network_revealNext w k).trans h.network
  descriptors := by cases k <;> exact h.descriptors
  receive := by rw [revealNext_derivation, h.receive]
  change := by rw [revealNext_derivation, h.change]

theorem spent_knows (stack : List Bytes) : KnowsFunding stack (spentWallet stack) :=
  (funded_knows stack).reveal .internal

/-! ### Building it -/

/-- The settings of the payment. -/
def paymentParams (script : Script) : BuildParams where
  feeSatPerKwu := 250
  unspendable := []
  selected := none
  target := .addRecipient script 60000

theorem spent_funded (stack : List Bytes) : Funded (spentWallet stack) [fundingCoin] := by
  intro coin hcoin tx htx
  obtain rfl := List.mem_singleton.mp hcoin
  have hfunding : (spentWallet stack).getTx fundingCoin.outpoint.txid = _ := (spent_knows stack).funding
  rw [hfunding, Option.map_some, Option.some.injEq] at htx
  rw [← htx]
  exact List.cons_ne_nil _ _

/-- The payment as the builder returns it. -/
def builtPayment (script : Script) (stack : List Bytes) : BuiltTx where
  psbt := paymentPsbt script stack
  wellFormed := buildPsbt_wellFormed _ (spent_funded stack)
  revealsChange := true

theorem buildOutputs_pay {w : TestWallet} {params : BuildParams} {coins : List LocalOutput}
    {script : Script} {sats : UInt64} {fee total : Nat}
    (htarget : params.target = .addRecipient script sats)
    (hfee : buildFee params.feeSatPerKwu.toNat coins.length 2 = fee)
    (htotal : (coins.map (fun c => c.txout.value.toNat)).sum = total)
    (hle : sats.toNat + fee + 294 ≤ total) :
    buildOutputs w params coins =
      some ([{ value := sats, scriptPubkey := script },
        { value := UInt64.ofNat (total - sats.toNat - fee)
          scriptPubkey := (w.revealNext .internal).1.scriptPubkey }], true) := by
  simp only [buildOutputs, htarget, hfee, htotal, if_pos hle]

theorem finish_payment (script : Script) (stack : List Bytes) :
    finishTx (fundedWallet stack) (paymentParams script) = some (builtPayment script stack) := by
  have hcoins : chooseCoins (fundedWallet stack) (paymentParams script) = [fundingCoin] := by
    show ((fundedWallet stack).listUnspent.filter (fun c => c.outpoint ∉ [] ∧
      (60000 : UInt64).toNat + buildFee 250 1 2 ≤ c.txout.value.toNat)).take 1 = _
    rw [(funded_knows stack).unspent, List.filter_cons_of_pos (by decide)]
    rfl
  have houtputs : buildOutputs (fundedWallet stack) (paymentParams script) [fundingCoin] =
      some ((paymentTx script []).output, true) := by
    have hchange : ((fundedWallet stack).revealNext .internal).1.scriptPubkey = changeScript := by
      have hempty : ((fundedWallet stack).revealNext .internal).1.scriptPubkey =
        (revealedWallet.revealNext .internal).1.scriptPubkey := rfl
      rw [hempty]
      decide
    have hfee : buildFee (paymentParams script).feeSatPerKwu.toNat [fundingCoin].length 2 = 141 := by
      show buildFee (250 : UInt64).toNat 1 2 = 141
      decide
    have htotal : ([fundingCoin].map (fun c => c.txout.value.toNat)).sum = 100000 := by
      decide
    have hvalue : UInt64.ofNat (100000 - (60000 : UInt64).toNat - 141) = 39859 := by decide
    rw [buildOutputs_pay rfl hfee htotal (by decide), hchange, hvalue]
    rfl
  unfold finishTx
  rw [hcoins]
  dsimp only
  rw [houtputs]
  exact dif_pos (spent_funded stack)

theorem fundingId_bytes : fundingId = txidOfBytes fundingTxid := by
  decide

theorem payment_unsigned (script : Script) (stack : List Bytes) :
    (paymentPsbt script stack).unsignedTx = paymentTx script [] := by
  have htip : UInt32.ofNat (spentWallet stack).tipHeight = 102 := by
    rw [(spent_knows stack).tip]
    rfl
  have houtpoint : fundingCoin.outpoint = { txid := txidOfBytes fundingTxid, vout := 0 } := by
    rw [← fundingId_bytes]
    rfl
  show buildTx (spentWallet stack) [fundingCoin] (paymentTx script []).output = _
  rw [buildTx, htip, List.map_singleton, houtpoint]
  rfl

/-! ### The draft -/

def fundingText : String := displayOutPoint fundingOutput

/-- The funding output in the list of coins. -/
def fundingRow : Coin where
  outpoint := fundingText
  sats := 100000
  label := ""
  address := "bcrt1q7f0pjwhc3jzzv0w4uurm589506glv2dggfan4s"
  status := .available

def paymentRequest (address : String) : DraftRequest where
  walletId := walletId
  payment := .send address 60000
  selectedOutpoints := none
  feeSatPerKwu := 250
  label := ""

def paymentId (script : Script) : String := draftIdentity env walletId (paymentTx script [])

theorem paymentId_eq (script : Script) :
    draftIdentity env walletId (paymentTx script []) = paymentId script := rfl

-- two ids are compared without running the hash
attribute [irreducible] paymentId

def paymentReview (script : Script) (address : String) : DraftReview where
  id := paymentId script
  walletId := walletId
  inputs := [{ outpoint := fundingText, sats := 100000, label := "" }]
  outputs := [{ address, sats := 60000, isChange := false, isMine := false },
    { address := "bcrt1q4mecjzu9uc7wavhk6k2j92nnudvt8lpu6h4ed0"
      sats := 39859
      isChange := true
      isMine := true }]
  feeSats := 141
  feeSatPerKwu := some 250
  label := ""
  isConsolidation := false
  state := .unsigned

/-- The row of the draft. -/
def paymentRow (script : Script) (address : String) (stack : List Bytes) (now : Nat) : DraftRow where
  walletId := walletId
  psbt := env.psbtText (paymentPsbt script stack)
  reviewJson := reviewText env (paymentReview script address)
  label := ""
  createdAt := now

/-- A store with the account, its sync state and a payment. -/
def paidStore (db : Db TestWallet) (row : WalletRow TestWallet) (script : Script) (address : String)
    (stack : List Bytes) (now : Nat) : Db TestWallet where
  wallets := (∅ : Table String (WalletRow TestWallet)).insert walletId
    { row with state := spentWallet stack }
  syncState := db.syncState
  drafts := (∅ : Table String DraftRow).insert (paymentId script)
    (paymentRow script address stack now)
  reservations := (∅ : Table (String × String) String).insert (walletId, fundingText)
    (paymentId script)

theorem insertReservations_single {State : Type} {db db' : Db State} {w d : String}
    {i : ReviewedInput} (h : db.insertReservation w i.outpoint d = .ok db') :
    insertReservations w d [i] db = .ok db' := by
  rw [insertReservations, List.foldlM_cons, h, ok_bind]
  rfl

/-- The steps of a creation that succeeds. -/
theorem createDraft_of {State Wallet Scan : Type} (env : Env State Wallet Scan) {db db₁ db₂ : Db State}
    {r : DraftRequest} {seed now : Nat} {l : Loaded State Wallet} {psbt : Psbt}
    {review : DraftReview} {wallet : Wallet} (hlabel : Labels.validateLabel r.label = .ok ())
    (hrate : 1 ≤ r.feeSatPerKwu ∧ r.feeSatPerKwu ≤ 250000)
    (hload : load env db r.walletId = .ok l) (hnetwork : l.summary.network ≠ .mainnet)
    (hsynced : l.summary.syncedAt ≠ none)
    (hplan : planDraft env db l r seed = .ok (psbt, review, wallet))
    (hdraft : db.insertDraft review.id
      { walletId := r.walletId
        psbt := env.psbtText psbt
        reviewJson := reviewText env review
        label := r.label
        createdAt := now } = .ok db₁)
    (hreserve : insertReservations r.walletId review.id review.inputs db₁ = .ok db₂) :
    createDraft env db r seed now =
      .ok (review, save env db₂ r.walletId { l with wallet }) := by
  rw [createDraft, hlabel, ok_bind, require_of hrate, ok_bind, hload, ok_bind, require_of hnetwork,
    ok_bind, require_of hsynced, ok_bind, hplan, ok_bind]
  dsimp only
  rw [hdraft, ok_bind, hreserve, ok_bind]

/-- The store with the draft's row, and with its reservation. -/
def draftedStore (db : Db TestWallet) (script : Script) (address : String) (stack : List Bytes)
    (now : Nat) : Db TestWallet :=
  { db with
    drafts := (∅ : Table String DraftRow).insert (paymentId script)
      (paymentRow script address stack now) }

def reservedStore (db : Db TestWallet) (script : Script) (address : String) (stack : List Bytes)
    (now : Nat) : Db TestWallet :=
  { draftedStore db script address stack now with
    reservations := (∅ : Table (String × String) String).insert (walletId, fundingText)
      (paymentId script) }

section Payment

variable {db : Db TestWallet} {row : WalletRow TestWallet} {script : Script} {address : String}
  {stack : List Bytes}

-- the record of crates is deeper than the default limit
set_option maxRecDepth 2000 in
/-- The funding output is available where nothing names it. -/
theorem KnowsFunding.coin {w : TestWallet} (hknows : KnowsFunding stack w)
    (hlabel : getLabel db walletId .output fundingText = "")
    (hfrozen : db.isFrozen walletId fundingText = false)
    (hreserved : db.isReserved walletId fundingText = false) :
    coinOf env db walletId w fundingCoin = .ok fundingRow := by
  have haddress : env.addressFromScript (env.walletNetwork w) receiveScript =
      some fundingRow.address := by
    have hnetwork : env.walletNetwork w = .regtest := hknows.network
    have hdisplay : env.addressFromScript = addressFromScript := rfl
    have hlookup : addresses.lookup receiveScript = some fundingRow.address := by decide
    rw [hnetwork, hdisplay, addressFromScript, hlookup]
  have hstatus : coinStatus env db walletId w fundingCoin = .available := by
    have hcoinbase : isCoinbaseTx env w fundingCoin.outpoint.txid = false := by
      have hfunding : env.getTx w fundingCoin.outpoint.txid = _ := hknows.funding
      have htx : isCoinbase (fundingTx stack) = isCoinbase (fundingTx []) := rfl
      have hcrate : env.isCoinbase = isCoinbase := rfl
      rw [isCoinbaseTx, hfunding, Option.any_some, hcrate, htx]
      decide
    have hconfirmed : isConfirmed fundingCoin.chainPosition = true := rfl
    have hdisplay : env.displayOutPoint fundingCoin.outpoint = fundingText := rfl
    rw [coinStatus, hdisplay, hfrozen, hreserved, hconfirmed, hcoinbase]
    rfl
  have hdisplay : env.displayOutPoint fundingCoin.outpoint = fundingText := rfl
  have hscript : fundingCoin.txout.scriptPubkey = receiveScript := rfl
  rw [coinOf, hscript, haddress, okOr, ok_bind, hdisplay, hlabel, hstatus]
  rfl

theorem KnowsFunding.walletCoins {w : TestWallet} (hknows : KnowsFunding stack w)
    (hlabel : getLabel db walletId .output fundingText = "")
    (hfrozen : db.isFrozen walletId fundingText = false)
    (hreserved : db.isReserved walletId fundingText = false) :
    walletCoins env db walletId w = .ok [fundingRow] := by
  have hunspent : env.listUnspent w = [fundingCoin] := hknows.unspent
  rw [Engine.walletCoins, hunspent, List.mapM_cons, hknows.coin hlabel hfrozen hreserved]
  rfl

theorem FreshStore.walletCoins (h : FreshStore db row) (hknows : KnowsFunding stack row.state) :
    walletCoins env db walletId row.state = .ok [fundingRow] := by
  refine hknows.walletCoins ?_ ?_ ?_
  · rw [h.others, getLabel, Std.ExtTreeMap.getElem?_empty]
    rfl
  · rw [h.others, Db.isFrozen, Std.ExtTreeMap.getElem?_empty]
    rfl
  · rw [h.others, Db.isReserved, Std.ExtTreeMap.getElem?_empty]
    rfl

theorem payment_recipient (h : Payable script address) :
    recipientScript env address .regtest = .ok script := by
  have hparse : env.parseAddress = parseAddress := rfl
  rw [recipientScript, hparse, parseAddress, h.parse, Option.map_some, okOr, ok_bind]
  rfl

-- the record of crates is deeper than the default limit
set_option maxRecDepth 2000 in
theorem payment_outputs (h : Payable script address) :
    (paymentTx script []).output.mapM (reviewOutput env (spentWallet stack) .regtest false script) =
      .ok (paymentReview script address).outputs := by
  have hdisplay : env.addressFromScript = addressFromScript := rfl
  have hchangeAddress : addresses.lookup changeScript =
      some "bcrt1q4mecjzu9uc7wavhk6k2j92nnudvt8lpu6h4ed0" := by decide
  have hforeign : env.isMine (spentWallet stack) script = false := by
    have hspent : env.isMine (spentWallet stack) script =
        ((revealedWallet.revealNext .internal).2.derivationOfSpk script).isSome := rfl
    rw [hspent, h.foreign]
    rfl
  have hchange : env.isMine (spentWallet stack) changeScript = true := by
    have hspent : env.isMine (spentWallet stack) changeScript =
        ((spentWallet stack).derivationOfSpk changeScript).isSome := rfl
    rw [hspent, (spent_knows stack).change]
    rfl
  have hfirst : reviewOutput env (spentWallet stack) .regtest false script
      { value := 60000, scriptPubkey := script } =
      .ok { address, sats := 60000, isChange := false, isMine := false } := by
    rw [reviewOutput, hdisplay, addressFromScript, h.display, okOr, ok_bind, hforeign]
    simp
  have hsecond : reviewOutput env (spentWallet stack) .regtest false script
      { value := 39859, scriptPubkey := changeScript } =
      .ok { address := "bcrt1q4mecjzu9uc7wavhk6k2j92nnudvt8lpu6h4ed0"
            sats := 39859
            isChange := true
            isMine := true } := by
    rw [reviewOutput, hdisplay, addressFromScript, hchangeAddress, okOr, ok_bind, hchange]
    simp [h.external.symm]
  have houtputs : (paymentTx script []).output = [{ value := 60000, scriptPubkey := script },
    { value := 39859, scriptPubkey := changeScript }] := rfl
  rw [houtputs, List.mapM_cons, List.mapM_cons, hfirst, ok_bind, hsecond]
  rfl

theorem payment_fee : (spentWallet stack).calculateFee (paymentTx script []) = some 141 := by
  have hops : (paymentTx script []).previousOutputs = [fundingOutput] := rfl
  have hfind : [fundingCoin].find? (fun c => c.outpoint = fundingOutput) = some fundingCoin :=
    List.find?_cons_of_pos (by decide)
  have hpaid : ((paymentTx script []).output.map (fun o => o.value.toNat)).sum = 99859 := by
    show [(60000 : UInt64).toNat, (39859 : UInt64).toNat].sum = 99859
    decide
  rw [TestWallet.calculateFee, hops, (spent_knows stack).unspent, List.mapM_cons, hfind, hpaid]
  rfl

theorem payment_parse (hfits : WithinLimits env (paymentPsbt script stack)) :
    parseResponse env (env.serializePsbt (paymentPsbt script stack)) = .ok (paymentPsbt script stack) :=
  (parseResponse_serializePsbt env (builtPayment script stack).wellFormed).mpr ⟨hfits, rfl⟩

-- the record of crates is deeper than the default limit
set_option maxRecDepth 2000 in
theorem payment_reviewed : (paymentTx script []).input.mapM (reviewInput env [fundingRow]) =
    .ok (paymentReview script address).inputs := by
  have hop : env.displayOutPoint { txid := txidOfBytes fundingTxid, vout := 0 } = fundingText := by
    rw [← fundingId_bytes]
    rfl
  have hinput : (paymentTx script []).input =
      [{ previousOutput := { txid := txidOfBytes fundingTxid, vout := 0 }
         sequence := 0xfffffffd
         witness := [] }] := rfl
  have hfind : [fundingRow].find? (fun c => c.outpoint = fundingText) = some fundingRow :=
    List.find?_cons_of_pos (by simp [fundingRow])
  rw [hinput, List.mapM_cons, reviewInput, hop, hfind, okOr, ok_bind]
  rfl

theorem payment_target (hpay : Payable script address) :
    paymentTarget env (loadedAccount row) (paymentRequest address).payment none =
      .ok (script, row.state) := by
  have hnetwork : (loadedAccount row).summary.network = .regtest := rfl
  have hamount : (60000 : UInt64) ≠ 0 ∧ (60000 : UInt64) ≤ maxSats := by decide
  rw [paymentRequest, paymentTarget, require_of hamount, ok_bind, hnetwork,
    payment_recipient hpay, ok_bind]
  rfl

-- the record of crates is deeper than the default limit
set_option maxRecDepth 2000 in
theorem plan_payment (h : FreshStore db row) (hstate : row.state = fundedWallet stack)
    (hpay : Payable script address) (hfits : WithinLimits env (paymentPsbt script stack)) :
    planDraft env db (loadedAccount row) (paymentRequest address) 0 =
      .ok (paymentPsbt script stack, paymentReview script address, spentWallet stack) := by
  have hcoins : walletCoins env db walletId (loadedAccount row).wallet = .ok [fundingRow] :=
    h.walletCoins (hstate ▸ funded_knows stack)
  have hbuilt : Engine.buildPsbt env 0 (fundedWallet stack) (paymentParams script) =
      .ok (builtPayment script stack, spentWallet stack) := by
    have hfinish : env.finishTx 0 (fundedWallet stack) (paymentParams script) =
        some (builtPayment script stack) := finish_payment script stack
    have hselected : (paymentParams script).selected.all (env.addUtxos (fundedWallet stack)) = true :=
      rfl
    rw [Engine.buildPsbt, require_of hselected, ok_bind, hfinish, okOr, ok_bind]
    rfl
  have hparse := payment_parse hfits
  have hinputs : (paymentTx script []).input.mapM (reviewInput env [fundingRow]) =
      .ok (paymentReview script address).inputs := payment_reviewed
  have hnetwork : (loadedAccount row).summary.network = .regtest := rfl
  have hunsigned := payment_unsigned script stack
  have hfee : env.calculateFee (spentWallet stack) (paymentTx script []) = some 141 := payment_fee
  have houtputs : (paymentTx script []).output.mapM
      (reviewOutput env (spentWallet stack) .regtest false script) =
        .ok (paymentReview script address).outputs := payment_outputs hpay
  have hlen : false = true →
      (paymentReview script address).outputs.length = 1 ∧
      ∀ o ∈ (paymentReview script address).outputs.head?, o.isMine = true := by
    intro hconsolidate
    cases hconsolidate
  have hcap : (141 : UInt64) ≤ 1000000 := by decide
  rw [planDraft]
  show (walletCoins env db walletId (loadedAccount row).wallet >>= _) = _
  rw [hcoins, ok_bind]
  have hselect : ∀ cs, selectCoins env cs (paymentRequest address).selectedOutpoints = .ok none :=
    fun _ => rfl
  have htarget : paymentTarget env (loadedAccount row) (paymentRequest address).payment none =
      .ok (script, fundedWallet stack) := hstate ▸ payment_target hpay
  have hexcluded : excludedOutpoints env [fundingRow] = .ok [] := rfl
  dsimp only
  rw [hselect, ok_bind, htarget, ok_bind]
  dsimp only
  rw [hexcluded, ok_bind]
  show (Engine.buildPsbt env 0 (fundedWallet stack) (paymentParams script) >>= _) = _
  rw [hbuilt, ok_bind]
  dsimp only
  show (orError (parseResponse env (env.serializePsbt (paymentPsbt script stack))) _ >>= _) = _
  have horError : orError (.ok (paymentPsbt script stack)) (Error.invalidInput
      "transaction exceeds signing payload limits") = .ok (paymentPsbt script stack) := rfl
  have hpsbt : (builtPayment script stack).psbt = paymentPsbt script stack := rfl
  have havailable : [fundingRow].filter (fun c => c.status = .available) = [fundingRow] := rfl
  have hsingle : isConsolidation (paymentRequest address).payment = false := rfl
  rw [hparse, horError, ok_bind, hpsbt, hunsigned, havailable, hsingle, Option.all_none,
    require_of rfl, ok_bind, hinputs, ok_bind, hnetwork,
    houtputs, ok_bind, require_of hlen, ok_bind, hfee, okOr, ok_bind, require_of hcap, ok_bind]
  have hid : draftIdentity env (paymentRequest address).walletId (paymentTx script []) =
      paymentId script := paymentId_eq script
  rw [hid]
  rfl

theorem FreshStore.insertDraft (h : FreshStore db row) (now : Nat) :
    db.insertDraft (paymentId script) (paymentRow script address stack now) =
      .ok (draftedStore db script address stack now) := by
  have hwallet : (db.wallets[(paymentRow script address stack now).walletId]?).isSome := by
    have hid : (paymentRow script address stack now).walletId = walletId := rfl
    rw [hid, h.get]
    rfl
  have hempty : db.drafts = ∅ := by rw [h.others]
  have hnew : db.drafts.insertNew (paymentId script) (paymentRow script address stack now) =
      some ((∅ : Table String DraftRow).insert (paymentId script)
        (paymentRow script address stack now)) := by
    rw [hempty, Table.insertNew_eq_some]
    exact ⟨Std.ExtTreeMap.getElem?_empty, rfl⟩
  rw [Db.insertDraft, require_of hwallet, ok_bind, hnew, okOr, ok_bind, draftedStore]

theorem FreshStore.insertReservations (h : FreshStore db row) (now : Nat) :
    insertReservations walletId (paymentId script) (paymentReview script address).inputs
      (draftedStore db script address stack now) =
      .ok (reservedStore db script address stack now) := by
  have hselect : ((draftedStore db script address stack now).selectDraft walletId
      (paymentId script)).isSome := by
    have hget : (draftedStore db script address stack now).drafts[paymentId script]? =
        some (paymentRow script address stack now) := Table.get_insert_self _ _ _
    exact Drafts.selectDraft_isSome.mpr ⟨_, hget, rfl⟩
  have hempty : db.reservations = ∅ := by rw [h.others]
  have hnew : db.reservations.insertNew (walletId, fundingText) (paymentId script) =
      some ((∅ : Table (String × String) String).insert (walletId, fundingText)
        (paymentId script)) := by
    rw [hempty, Table.insertNew_eq_some]
    exact ⟨Std.ExtTreeMap.getElem?_empty, rfl⟩
  have hreservations : (draftedStore db script address stack now).reservations =
      db.reservations := rfl
  refine insertReservations_single ?_
  rw [Db.insertReservation, require_of hselect, ok_bind, hreservations, hnew, okOr, ok_bind,
    reservedStore]

-- the record of crates is deeper than the default limit
set_option maxRecDepth 2000 in
theorem FreshStore.save_payment (h : FreshStore db row) (now : Nat) :
    save env (reservedStore db script address stack now) walletId
      { loadedAccount row with wallet := spentWallet stack } =
      paidStore db row script address stack now := by
  have hget : (reservedStore db script address stack now).wallets[walletId]? = some row := h.get
  have hwallets : (reservedStore db script address stack now).wallets.insert walletId
      { row with state := spentWallet stack } =
      (∅ : Table String (WalletRow TestWallet)).insert walletId
        { row with state := spentWallet stack } := by
    have hsame : (reservedStore db script address stack now).wallets = db.wallets := rfl
    rw [hsame, h.wallets, insert_singleton]
  have hsaved : env.savedState (loadedAccount row).state (spentWallet stack) =
    spentWallet stack := rfl
  rw [save]
  dsimp only
  rw [hsaved, Db.updateState, hget]
  dsimp only
  rw [hwallets, reservedStore, draftedStore, h.others]
  rfl

-- the record of crates is deeper than the default limit
set_option maxRecDepth 2000 in
/-- The payment is stored with its reservation and the wallet that knows its change. -/
theorem create_payment (h : FreshStore db row) (hstate : row.state = fundedWallet stack)
    (hsynced : row.syncedAt ≠ none) (hpay : Payable script address)
    (hfits : WithinLimits env (paymentPsbt script stack)) (now : Nat) :
    createDraft env db (paymentRequest address) 0 now =
      .ok (paymentReview script address, paidStore db row script address stack now) := by
  have hlabel : Labels.validateLabel "" = .ok () :=
    Labels.validateLabel_eq_ok.mpr ⟨by decide, List.forall_iff_forall_mem.mp (by decide)⟩
  have hrate : (1 : UInt64) ≤ 250 ∧ (250 : UInt64) ≤ 250000 := by decide
  have hnetwork : Network.regtest ≠ .mainnet := by decide
  have hdraft : db.insertDraft (paymentReview script address).id
      { walletId := (paymentRequest address).walletId
        psbt := env.psbtText (paymentPsbt script stack)
        reviewJson := reviewText env (paymentReview script address)
        label := (paymentRequest address).label
        createdAt := now } = .ok (draftedStore db script address stack now) := h.insertDraft now
  have hreserve : Engine.insertReservations (paymentRequest address).walletId
      (paymentReview script address).id (paymentReview script address).inputs
      (draftedStore db script address stack now) = .ok (reservedStore db script address stack now) :=
    h.insertReservations now
  have hcreated := createDraft_of env (r := paymentRequest address) hlabel hrate
    h.toHoldsAccount.load hnetwork hsynced (plan_payment h hstate hpay hfits) hdraft hreserve
  rw [hcreated]
  exact congrArg (fun db => Except.ok (paymentReview script address, db)) (h.save_payment now)

end Payment

/-! ### Its metadata and size -/

theorem change_metadata (stack : List Bytes) : buildOutput (spentWallet stack)
    { value := 39859, scriptPubkey := changeScript } =
      { bip32Derivation := derivations (accountDescriptor 1) 0 } := by
  rw [buildOutput, (spent_knows stack).change]
  dsimp only
  rw [TestWallet.descriptor, (spent_knows stack).descriptors.2]

theorem payee_metadata {script : Script} {address : String} (stack : List Bytes)
    (h : Payable script address) : buildOutput (spentWallet stack)
    { value := 60000, scriptPubkey := script } = {} := by
  have hforeign : (spentWallet stack).derivationOfSpk script = none := h.foreign
  rw [buildOutput, hforeign]

theorem payment_metadata {script : Script} {address : String} (stack : List Bytes)
    (h : Payable script address) : (paymentPsbt script stack).outputs =
    [{}, { bip32Derivation := derivations (accountDescriptor 1) 0 }] := by
  show [buildOutput (spentWallet stack) { value := 60000, scriptPubkey := script },
    buildOutput (spentWallet stack) { value := 39859, scriptPubkey := changeScript }] = _
  rw [payee_metadata stack h, change_metadata]

/-- The fields of the only input; the witness of the funding transaction is in the first. -/
def inputTail : RawFields :=
  optField [0x01] encodeTxOut (some fundingCoin.txout) ++
    derivationFields (derivations (accountDescriptor 0) 0) 0x06

theorem payment_inputs (script : Script) (stack : List Bytes) : (paymentPsbt script stack).inputs =
    [{ nonWitnessUtxo := some (fundingTx stack)
       witnessUtxo := some fundingCoin.txout
       bip32Derivation := derivations (accountDescriptor 0) 0 }] := by
  have hfunding : (spentWallet stack).getTx fundingCoin.outpoint.txid =
    some { tx := fundingTx stack, chainPosition := .confirmed 102 } := (spent_knows stack).funding
  have hplace : (spentWallet stack).derivationOfSpk fundingCoin.txout.scriptPubkey =
    some (.external, 0) := (spent_knows stack).receive
  show [buildInput (spentWallet stack) fundingCoin] = _
  rw [buildInput, hfunding, hplace]
  dsimp only
  rw [TestWallet.descriptor, (spent_knows stack).descriptors.1]
  rfl

theorem payment_inputFields (stack : List Bytes) : inputFields
    { nonWitnessUtxo := some (fundingTx stack)
      witnessUtxo := some fundingCoin.txout
      bip32Derivation := derivations (accountDescriptor 0) 0 } =
    ([0x00], serializeTx (fundingTx stack)) :: inputTail := rfl

theorem inputTail_limits : inputTail.length ≤ 63 ∧ ∀ f ∈ inputTail, f.1.length ≤ 256 := by
  decide

/-- The global map of the payment announces one input and two outputs. -/
def Announces (script : Script) : Prop :=
  fieldsShape true 64 none (globalFields (paymentPsbt script [])) = .ok (some (1, 2))

theorem payment_fits {script : Script} {address : String} (stack : List Bytes)
    (hpay : Payable script address) (hshape : Announces script)
    (hsize : (env.serializePsbt (paymentPsbt script stack)).length ≤ maxPsbtBytes) :
    WithinLimits env (paymentPsbt script stack) where
  size := hsize
  shape := ⟨1, 2, hshape, rfl⟩
  inputs := by
    intro i hi
    rw [payment_inputs] at hi
    obtain rfl := List.mem_singleton.mp hi
    obtain ⟨hlength, hkeys⟩ := inputTail_limits
    show WithinFieldLimits (inputFields _)
    rw [payment_inputFields]
    have hkey : ([0x00] : Bytes).length ≤ 256 := by decide
    refine ⟨?_, List.forall_mem_cons.mpr ⟨hkey, hkeys⟩⟩
    rw [List.length_cons]
    omega
  outputs := by
    have hchange : WithinFieldLimits (outputFields
        { bip32Derivation := derivations (accountDescriptor 1) 0 }) := by
      unfold WithinFieldLimits
      decide
    rw [payment_metadata stack hpay]
    exact List.forall_mem_cons.mpr ⟨⟨Nat.zero_le _, fun f hf => absurd hf List.not_mem_nil⟩,
      List.forall_mem_singleton.mpr hchange⟩

theorem payee_announces : Announces payeeScript := by
  unfold Announces
  decide

theorem hidden_announces : Announces hiddenScript := by
  unfold Announces
  decide

theorem payee_fits : WithinLimits env (paymentPsbt payeeScript []) :=
  payment_fits [] payee_payable payee_announces (by decide +kernel)

theorem hidden_fits : WithinLimits env (paymentPsbt hiddenScript []) :=
  payment_fits [] hidden_payable hidden_announces (by decide +kernel)

/-! ## Loading the draft -/

/-- What the wallet itself knows of the funding output. -/
def fundingTrusted : TrustedInput where
  prevout := fundingCoin.txout
  metadata := { bip32Derivation := derivations (accountDescriptor 0) 0 }
  descriptor := derive (accountDescriptor 0) 0

/-- The payment as it is loaded. -/
def loadedPayment (script : Script) (address : String) (stack : List Bytes) (phase : DraftState)
    (stored : Option Psbt) : SigningDraft where
  approved := paymentPsbt script stack
  stored
  trusted := [fundingTrusted]
  review := (paymentReview script address).withState phase

/-- The row of the draft in a given state. -/
def phaseRow (script : Script) (address : String) (stack : List Bytes) (now : Nat)
    (phase : DraftState) : DraftRow :=
  { paymentRow script address stack now with
    reviewJson := reviewText env ((paymentReview script address).withState phase) }

/-- A store with the account and a payment in a given state, whatever else it holds. -/
structure HoldsPayment (db : Db TestWallet) (row : WalletRow TestWallet) (script : Script)
    (address : String) (stack : List Bytes) (phase : DraftState) : Prop
    extends HoldsAccount db row where
  knows : KnowsFunding stack row.state
  synced : row.syncedAt ≠ none
  draft : ∃ now, db.drafts[paymentId script]? = some (phaseRow script address stack now phase)
  reserved : db.reservations[(walletId, fundingText)]? = some (paymentId script)
  unfrozen : db.isFrozen walletId fundingText = false

section Loading

variable {db : Db TestWallet} {row : WalletRow TestWallet} {script : Script} {address : String}
  {stack : List Bytes} {phase : DraftState}

-- the record of crates is deeper than the default limit
set_option maxRecDepth 2000 in
theorem HoldsPayment.loadInput (h : HoldsPayment db row script address stack phase) :
    loadInput env db walletId (paymentId script) row.state [] fundingOutput
      { outpoint := fundingText, sats := 100000, label := "" } = .ok fundingTrusted := by
  have hcoin : (env.listUnspent row.state).find? (fun c => c.outpoint = fundingOutput) =
      some fundingCoin := by
    have hunspent : env.listUnspent row.state = [fundingCoin] := h.knows.unspent
    rw [hunspent]
    exact List.find?_cons_of_pos (by decide)
  have hfunding : env.getTx row.state fundingId =
    some { tx := fundingTx stack, chainPosition := .confirmed 102 } := h.knows.funding
  have hspendable : spendable fundingCoin.chainPosition (env.tipHeight row.state)
      (env.isCoinbase (fundingTx stack)) = true := by
    have htip : env.tipHeight row.state = 102 := h.knows.tip
    have hcoinbase : env.isCoinbase (fundingTx stack) = isCoinbase (fundingTx []) := rfl
    rw [htip, hcoinbase]
    decide
  have hderivation : env.derivationOfSpk row.state receiveScript = some (.external, 0) :=
    h.knows.receive
  have hdescriptor : env.publicDescriptor row.state .external = accountDescriptor 0 :=
    h.knows.descriptors.1
  have hinput : env.deriveInput (accountDescriptor 0) 0 =
    some (fundingTrusted.metadata, fundingTrusted.descriptor) := rfl
  refine (loadInput_eq_ok env).mpr ⟨⟨⟨fundingCoin, _, .external, 0, hcoin, hfunding, hspendable, rfl,
    hderivation, ?_, rfl⟩, h.reserved, h.unfrozen, rfl⟩, List.not_mem_nil⟩
  rw [hdescriptor, hinput]

-- the record of crates is deeper than the default limit
set_option maxRecDepth 2000 in
theorem KnowsFunding.changeOutput {w : TestWallet} (h : KnowsFunding stack w) :
    checkDraftOutput env .regtest w { value := 39859, scriptPubkey := changeScript }
      { address := "bcrt1q4mecjzu9uc7wavhk6k2j92nnudvt8lpu6h4ed0"
        sats := 39859
        isChange := true
        isMine := true }
      { bip32Derivation := derivations (accountDescriptor 1) 0 } = .ok () := by
  have hdisplay : env.addressFromScript .regtest changeScript =
      some "bcrt1q4mecjzu9uc7wavhk6k2j92nnudvt8lpu6h4ed0" := by
    have hcrate : env.addressFromScript = addressFromScript := rfl
    have hlookup : addresses.lookup changeScript =
        some "bcrt1q4mecjzu9uc7wavhk6k2j92nnudvt8lpu6h4ed0" := by decide
    rw [hcrate, addressFromScript, hlookup]
  have hmine : env.isMine w changeScript = true := by
    have hcrate : env.isMine w changeScript = (w.derivationOfSpk changeScript).isSome := rfl
    rw [hcrate, h.change]
    rfl
  have hexpected : expectedOutput env w changeScript =
      .ok { bip32Derivation := derivations (accountDescriptor 1) 0 } := by
    have hplace : env.derivationOfSpk w changeScript = some (.internal, 0) := h.change
    have hdescriptor : env.publicDescriptor w .internal = accountDescriptor 1 := h.descriptors.2
    have hderive : env.deriveOutput (accountDescriptor 1) 0 =
        some ({ bip32Derivation := derivations (accountDescriptor 1) 0 },
          derive (accountDescriptor 1) 0) := rfl
    have hscript : env.scriptPubkey (derive (accountDescriptor 1) 0) = changeScript := by
      have hcrate : env.scriptPubkey = scriptPubkey := rfl
      rw [hcrate]
      decide
    rw [expectedOutput, hplace]
    dsimp only
    rw [hdescriptor, hderive, okOr, ok_bind, require_of hscript, ok_bind]
  have hcheck : checkOutput { bip32Derivation := derivations (accountDescriptor 1) 0 }
      { bip32Derivation := derivations (accountDescriptor 1) 0 } = .ok () :=
    require_of ⟨rfl, rfl, rfl, subset_refl _⟩
  rw [checkDraftOutput, hdisplay, okOr, ok_bind, hmine,
    require_of ⟨rfl, rfl, rfl, fun _ => rfl⟩, ok_bind, hexpected, ok_bind, hcheck]
  rfl

-- the record of crates is deeper than the default limit
set_option maxRecDepth 2000 in
theorem payeeOutput (h : Payable script address) {w : TestWallet}
    (hforeign : w.derivationOfSpk script = none) :
    checkDraftOutput env .regtest w { value := 60000, scriptPubkey := script }
      { address, sats := 60000, isChange := false, isMine := false } {} = .ok () := by
  have hdisplay : env.addressFromScript .regtest script = some address := by
    have hcrate : env.addressFromScript = addressFromScript := rfl
    rw [hcrate, addressFromScript, h.display]
  have hmine : env.isMine w script = false := by
    have hcrate : env.isMine w script = (w.derivationOfSpk script).isSome := rfl
    rw [hcrate, hforeign]
    rfl
  have hexpected : expectedOutput env w script = .ok {} := by
    have hcrate : env.derivationOfSpk w script = none := hforeign
    rw [expectedOutput, hcrate]
  rw [checkDraftOutput, hdisplay, okOr, ok_bind, hmine,
    require_of ⟨rfl, rfl, rfl, fun hchange => hchange⟩, ok_bind, hexpected, ok_bind]
  rfl

-- the record of crates is deeper than the default limit
set_option maxRecDepth 2000 in
/-- The draft loads as long as the wallet does not recognise the payee's script. -/
theorem HoldsPayment.load_draft (h : HoldsPayment db row script address stack phase)
    (hpay : Payable script address) (hforeign : row.state.derivationOfSpk script = none)
    (hfits : WithinLimits env (paymentPsbt script stack)) (hlive : phase.isLive = true)
    {stored : Option Psbt} (hstored : loadStored env db walletId (paymentId script) = .ok stored) :
    loadDraft env db walletId (paymentId script) =
      .ok (loadedPayment script address stack phase stored) := by
  obtain ⟨now, hdraft⟩ := h.draft
  have hunsigned : (paymentPsbt script stack).unsignedTx = paymentTx script [] :=
    payment_unsigned script stack
  have hinputs : loadInputs env db walletId (paymentId script) row.state
      (paymentTx script []).previousOutputs (paymentReview script address).inputs [] 0 =
      .ok ([fundingTrusted], 100000) := by
    have hops : (paymentTx script []).previousOutputs = [fundingOutput] := by
      rw [fundingOutput, fundingId_bytes]
      rfl
    have hreviewed : (paymentReview script address).inputs =
        [{ outpoint := fundingText, sats := 100000, label := "" }] := rfl
    have hsum : checkedAdd 0 100000 = some 100000 := by decide
    rw [hops, hreviewed, loadInputs, h.loadInput, ok_bind, hsum, okOr, ok_bind]
    rfl
  have houtputs : loadOutputs env .regtest row.state (paymentTx script []).output
      (paymentReview script address).outputs (paymentPsbt script stack).outputs 0 = .ok 99859 := by
    have hfirst : checkedAdd 0 60000 = some 60000 := by decide
    have hsecond : checkedAdd 60000 39859 = some 99859 := by decide
    have htx : (paymentTx script []).output = [{ value := 60000, scriptPubkey := script },
      { value := 39859, scriptPubkey := changeScript }] := rfl
    rw [payment_metadata stack hpay, htx, paymentReview, loadOutputs, payeeOutput hpay hforeign, ok_bind,
      hfirst, okOr, ok_bind, loadOutputs, h.knows.changeOutput, ok_bind, hsecond, okOr, ok_bind,
      loadOutputs]
    rintro _ _ _ _ _ _ ⟨⟩
  have hnetwork : Network.regtest ≠ .mainnet := by decide
  have hfee : (100000 : UInt64) ≤ maxSats ∧ checkedSub 100000 99859 = some 141 ∧
      (141 : UInt64) ≤ 1000000 := by decide
  exact (loadDraft_eq_ok env).mpr ⟨loadedAccount row, phaseRow script address stack now phase,
    { wallet := h.toHoldsAccount.load
      network := hnetwork
      synced := h.synced
      found := Drafts.selectDraft_eq_some.mpr ⟨hdraft, rfl⟩
      approved := (parseResponse_psbtText env (builtPayment script stack).wellFormed).mpr ⟨hfits, rfl⟩
      review := rfl
      live := hlive
      identity := hunsigned ▸ paymentId_eq script
      id := rfl
      walletId := rfl
      inputs_length := rfl
      outputs_length := rfl
      xpub := subset_eq_true.mpr fun k v hk => by
        have hnone : (∅ : Table Xpub KeySource)[k]? = some v := hk
        rw [Std.ExtTreeMap.getElem?_empty] at hnone
        cases hnone
      unknown := rfl
      proprietary := rfl
      sums := ⟨100000, 99859, hunsigned ▸ hinputs, hunsigned ▸ houtputs, hfee⟩
      stored := hstored }⟩

/-- Once the wallet recognises the payee's script, the stored review disagrees. -/
theorem HoldsPayment.not_loaded (h : HoldsPayment db row script address stack phase)
    (hmine : (row.state.derivationOfSpk script).isSome) (draft : SigningDraft) :
    loadDraft env db walletId (paymentId script) ≠ .ok draft := by
  intro hload
  obtain ⟨loaded, draftRow, facts⟩ := (loadDraft_eq_ok env).mp hload
  obtain ⟨now, hdraft⟩ := h.draft
  obtain rfl : loadedAccount row = loaded :=
    Except.ok.inj (h.toHoldsAccount.load.symm.trans facts.wallet)
  obtain rfl : phaseRow script address stack now phase = draftRow := by
    have hfound := (Drafts.selectDraft_eq_some.mp facts.found).1
    exact Option.some.inj (hdraft.symm.trans hfound)
  have happroved : draft.approved = paymentPsbt script stack :=
    ((parseResponse_psbtText env (builtPayment script stack).wellFormed).mp facts.approved).2
  have hreview : draft.review = (paymentReview script address).withState phase :=
    (Option.some.inj facts.review).symm
  obtain ⟨_, _, -, houtputs, -⟩ := facts.sums
  rw [happroved, hreview, payment_unsigned] at houtputs
  have hchecked := ((loadOutputs_eq_ok env rfl rfl).mp houtputs).1
  obtain ⟨metadata, hfirst⟩ : ∃ metadata, checkDraftOutput env .regtest row.state
      { value := 60000, scriptPubkey := script }
      { address, sats := 60000, isChange := false, isMine := false } metadata = .ok () := by
    cases hchecked with
    | cons hfirst _ => exact ⟨_, hfirst⟩
  simp only [checkDraftOutput, bind_eq_ok, require_eq_ok, exists_unit] at hfirst
  obtain ⟨_, -, ⟨-, -, hforeign, -⟩, -⟩ := hfirst
  rw [env.isMine_eq] at hforeign
  exact absurd (hmine.symm.trans hforeign) (by decide)

/-- The store after an address has been revealed. -/
def revealedStore (db : Db TestWallet) (row : WalletRow TestWallet) : Db TestWallet :=
  { db with
    wallets := (∅ : Table String (WalletRow TestWallet)).insert walletId
      { row with state := (row.state.revealNext .external).2 } }

-- the record of crates is deeper than the default limit
set_option maxRecDepth 2000 in
theorem HoldsAccount.receive (h : HoldsAccount db row) :
    ∃ info, receiveAddress env db walletId = .ok (info, revealedStore db row) := by
  have hreveal : env.revealNextAddress (loadedAccount row).wallet .external =
    row.state.revealNext .external := rfl
  have hsave : ∀ w, save env db walletId { loadedAccount row with wallet := w } =
      { db with
        wallets := (∅ : Table String (WalletRow TestWallet)).insert walletId
          { row with state := w } } := by
    intro w
    have hsaved : env.savedState (loadedAccount row).state w = w := rfl
    have hwallets : db.wallets.insert walletId { row with state := w } =
        (∅ : Table String (WalletRow TestWallet)).insert walletId { row with state := w } := by
      rw [h.wallets, insert_singleton]
    rw [save]
    dsimp only
    rw [hsaved, Db.updateState, h.get]
    dsimp only
    rw [hwallets]
  refine ⟨{ address := (row.state.revealNext .external).1.address
            index := (row.state.revealNext .external).1.index
            hardwareVerified := false }, ?_⟩
  rw [receiveAddress, h.load, ok_bind, hreveal]
  dsimp only
  rw [hsave]
  rfl

theorem OfAccount.reveal {w : TestWallet} (h : OfAccount w) (k : KeychainKind) :
    OfAccount (w.revealNext k).2 := by
  cases k <;> exact ⟨h.network, h.receive, h.change⟩

/-- The draft is still there after an address has been revealed. -/
theorem HoldsPayment.reveal (h : HoldsPayment db row script address stack phase) :
    HoldsPayment (revealedStore db row) { row with state := (row.state.revealNext .external).2 }
      script address stack phase where
  wallets := rfl
  state := h.state.reveal .external
  name := h.name
  network := h.network
  policy := h.policy
  knows := h.knows.reveal .external
  synced := h.synced
  draft := h.draft
  reserved := h.reserved
  unfrozen := h.unfrozen

end Loading

/-! ## The runs -/

/-- What the first sync starts from. -/
def fundedSnapshot : Sync.Snapshot where
  syncedAt := none
  revision := 0
  serialized := env.stateJson importedWallet
  endpoint := serverUrl

def fundedRow (stack : List Bytes) : WalletRow TestWallet :=
  syncedRow (accountRow 0) (fundedWallet stack) 1000

/-- The store after the sync that confirms the funding transaction. -/
def fundedStore (stack : List Bytes) : Db TestWallet :=
  syncedStore (accountStore 0) (accountRow 0) (fundedWallet stack) fundedSnapshot 1000

theorem funded_ofAccount (stack : List Bytes) : OfAccount (fundedWallet stack) :=
  ⟨rfl, imported_ofAccount.receive, imported_ofAccount.change⟩

theorem funded_fresh (stack : List Bytes) : FreshStore (fundedStore stack) (fundedRow stack) :=
  (account_fresh 0).synced _ (funded_ofAccount stack) 1000

-- the record of crates is deeper than the default limit
set_option maxRecDepth 2000 in
theorem commit_funded (stack : List Bytes) : Sync.commitSync env (accountStore 0) walletId
    fundedSnapshot (confirmedScan stack) 1000 = .ok ((), fundedStore stack) :=
  (account_fresh 0).commit fundedSnapshot 1000 rfl rfl (apply_confirmed stack)

/-- The store with the payment, and the account's row in it. -/
def paymentStore (script : Script) (address : String) (stack : List Bytes) : Db TestWallet :=
  paidStore (fundedStore stack) (fundedRow stack) script address stack 0

def spentRow (stack : List Bytes) : WalletRow TestWallet :=
  { fundedRow stack with state := spentWallet stack }

theorem payment_held (script : Script) (address : String) (stack : List Bytes) :
    HoldsPayment (paymentStore script address stack) (spentRow stack) script address stack
      .unsigned where
  wallets := rfl
  state := (funded_ofAccount stack).reveal .internal
  name := rfl
  network := rfl
  policy := rfl
  knows := spent_knows stack
  synced := Option.some_ne_none _
  draft := ⟨0, Table.get_insert_self _ _ _⟩
  reserved := Table.get_insert_self _ _ _
  unfrozen := by
    show ((∅ : Table (String × String) Unit)[(walletId, fundingText)]?).isSome = false
    rw [Std.ExtTreeMap.getElem?_empty]
    rfl

/-- Import the account, confirm its funding output and pay the script with it. -/
def paymentRun (address : String) (stack : List Bytes) : List (System.Op ChainScan) :=
  [.importWallet "Main" accountPair .regtest 0,
    .commitSync walletId fundedSnapshot (confirmedScan stack) 1000,
    .createDraft (paymentRequest address) 0 0]

-- the record of crates is deeper than the default limit
set_option maxRecDepth 2000 in
theorem run_payment {script : Script} {address : String} {stack : List Bytes}
    (hpay : Payable script address) (hfits : WithinLimits env (paymentPsbt script stack)) :
    System.run env (paymentRun address stack) = { db := paymentStore script address stack } := by
  have himport : System.step env {} (.importWallet "Main" accountPair .regtest 0) =
      { db := accountStore 0 } := by
    refine System.step_ok env ?_ (fun now => by rintro ⟨⟩)
    rw [System.transact, import_account 0]
    rfl
  have hcommit : System.step env { db := accountStore 0 }
      (.commitSync walletId fundedSnapshot (confirmedScan stack) 1000) =
      { db := fundedStore stack } := by
    refine System.step_ok env ?_ (fun now => by rintro ⟨⟩)
    rw [System.transact, commit_funded]
    rfl
  have hcreate : System.step env { db := fundedStore stack }
      (.createDraft (paymentRequest address) 0 0) = { db := paymentStore script address stack } := by
    refine System.step_ok env ?_ (fun now => by rintro ⟨⟩)
    rw [System.transact, create_payment (funded_fresh stack) rfl (Option.some_ne_none _) hpay hfits]
    rfl
  have hsplit : paymentRun address stack = [] ++ [.importWallet "Main" accountPair .regtest 0] ++
      [.commitSync walletId fundedSnapshot (confirmedScan stack) 1000] ++
      [.createDraft (paymentRequest address) 0 0] := rfl
  have hstart : System.run env [] = ({} : System.World TestWallet) := rfl
  rw [hsplit, System.run_concat, System.run_concat, System.run_concat, hstart, himport, hcommit,
    hcreate]

theorem payment_loads {script : Script} {address : String} {stack : List Bytes}
    (hpay : Payable script address) (hfits : WithinLimits env (paymentPsbt script stack)) :
    loadDraft env (paymentStore script address stack) walletId (paymentId script) =
      .ok (loadedPayment script address stack .unsigned none) := by
  refine (payment_held script address stack).load_draft hpay hpay.foreign hfits rfl ?_
  have hnone : (paymentStore script address stack).draftSignatures[(walletId, paymentId script)]? =
      none := Std.ExtTreeMap.getElem?_empty
  rw [loadStored, hnone]

-- the record of crates is deeper than the default limit
set_option maxRecDepth 2000 in
theorem step_receive {db : Db TestWallet} {row : WalletRow TestWallet} (h : HoldsAccount db row) :
    System.step env ({ db } : System.World TestWallet) (.receiveAddress walletId : System.Op ChainScan) =
      { db := revealedStore db row } := by
  obtain ⟨info, hreceive⟩ := h.receive
  refine System.step_ok env ?_ (fun now => by rintro ⟨⟩)
  rw [System.transact, hreceive]
  rfl

/-- Index 1 brings the receive script at index 26 within the lookahead. -/
theorem hidden_revealed : (((spentWallet []).revealNext .external).2.derivationOfSpk
    hiddenScript).isSome := by
  decide

theorem payee_not_next : payeeScript ≠ env.nextRecognised (spentWallet []) .external := by
  have hnext : env.nextRecognised (spentWallet []) .external =
    (spentWallet []).peekScript .external 26 := rfl
  rw [hnext]
  decide

end Fixture
end Tundra
