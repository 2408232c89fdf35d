/-
  Tundra.Fixture.Huge

  A server that lists an unconfirmed transaction with an output of 2^64 - 1 sats
  to the wallet, which the history then shows as a loss of one.
-/

import Tundra.Fixture.Spending
import Tundra.Totals

namespace Tundra
namespace Fixture

open Ascii Wire Relational Checked Engine Overflow Totals

/-! ## The sums of the fixture's wallet -/

-- the record of crates is deeper than the default limit
set_option maxRecDepth 2000 in
def balanceEnv : BalanceEnv TestWallet TestWallet ChainScan where
  toEnv := env
  spentValues w tx := ((w.canonical.flatMap w.ownOutputs).filter
    (fun o => o.outpoint ∈ tx.previousOutputs)).map (fun o => o.txout.value)
  sentAndReceived_eq w tx sent received hsent hreceived := by
    have hcrate : env.sentAndReceived = TestWallet.sentAndReceived := rfl
    show env.sentAndReceived w tx = _
    rw [hcrate, sumU64_eq_sum hsent, sumU64_eq_sum hreceived]
    rfl

/-! ## The transaction -/

def hugeTx : Transaction :=
  { fundingTx [] with output := [{ value := 0xffffffffffffffff, scriptPubkey := receiveScript }] }

def hugeId : Txid := computeTxid hugeTx

/-- What a scan finds. -/
def hugeScan : ChainScan where
  blocks := (∅ : Table Nat BlockHash).insert 0 (genesisHash .regtest)
  update :=
    { txs := [hugeTx]
      seenAts := [(hugeId, 1000)]
      lastActiveIndices := [(.external, 0)] }

/-- The wallet after the scan's update. -/
def hugeWallet : TestWallet :=
  { revealedWallet with
    chain := hugeScan.blocks
    graph := [(hugeId, hugeTx)]
    lastSeen := (∅ : Table Txid Nat).insert hugeId 1000 }.reindex

theorem apply_huge : (onChain importedWallet hugeScan).applyUpdate computeTxid hugeScan =
    some hugeWallet := by
  have hchain : ¬ (onChain importedWallet hugeScan).chain.isEmpty := by
    have hblocks : (onChain importedWallet hugeScan).chain = hugeScan.blocks := rfl
    rw [hblocks]
    decide
  rw [TestWallet.applyUpdate, if_neg hchain]
  rfl

theorem huge_canonical : hugeWallet.canonical =
    [(hugeId, { tx := hugeTx, chainPosition := .unconfirmed (some 1000) })] := by
  have hseen : ((∅ : Table Txid Nat).insert hugeId 1000)[hugeId]? = some 1000 :=
    Table.get_insert_self _ _ _
  have hposition : hugeWallet.position hugeId = some (.unconfirmed (some 1000)) := by
    have hlast : hugeWallet.lastSeen[hugeId]? = some 1000 := hseen
    have hevicted : hugeWallet.lastEvicted[hugeId]? = none := Std.ExtTreeMap.getElem?_empty
    rw [TestWallet.position, hlast, hevicted]
    rfl
  have hgraph : hugeWallet.graph = [(hugeId, hugeTx)] := rfl
  rw [TestWallet.canonical, hgraph, List.filterMap_cons, hposition]
  rfl

theorem huge_received : receivedValues balanceEnv hugeWallet hugeTx = [0xffffffffffffffff] := by
  have hmine : balanceEnv.isMine hugeWallet receiveScript = true := by
    show (hugeWallet.derivationOfSpk receiveScript).isSome = true
    have hrecognised : hugeWallet.derivationOfSpk receiveScript =
      revealedWallet.derivationOfSpk receiveScript := rfl
    rw [hrecognised]
    decide
  have houtput : hugeTx.output = [{ value := 0xffffffffffffffff, scriptPubkey := receiveScript }] := rfl
  rw [receivedValues, houtput, List.filter_singleton, hmine]
  rfl

theorem huge_ofAccount : OfAccount hugeWallet :=
  ⟨rfl, imported_ofAccount.receive, imported_ofAccount.change⟩

/-! ## The run -/

/-- Import the account and commit the scan. -/
def hugeRun : List (System.Op ChainScan) :=
  [.importWallet "Main" accountPair .regtest 0, .commitSync walletId fundedSnapshot hugeScan 1000]

def hugeStore : Db TestWallet := syncedStore (accountStore 0) (accountRow 0) hugeWallet fundedSnapshot 1000

-- the record of crates is deeper than the default limit
set_option maxRecDepth 2000 in
theorem run_huge : System.run env hugeRun = { db := hugeStore } := by
  have himport : System.step env {} (.importWallet "Main" accountPair .regtest 0) =
      { db := accountStore 0 } := by
    refine System.step_ok env ?_ (fun now => by rintro ⟨⟩)
    rw [System.transact, import_account 0]
    rfl
  have hcommit : System.step env { db := accountStore 0 }
      (.commitSync walletId fundedSnapshot hugeScan 1000) = { db := hugeStore } := by
    refine System.step_ok env ?_ (fun now => by rintro ⟨⟩)
    rw [System.transact, (account_fresh 0).commit fundedSnapshot 1000 rfl rfl apply_huge]
    rfl
  have hsplit : hugeRun = [] ++ [.importWallet "Main" accountPair .regtest 0] ++
      [.commitSync walletId fundedSnapshot hugeScan 1000] := rfl
  have hstart : System.run env [] = ({} : System.World TestWallet) := rfl
  rw [hsplit, System.run_concat, System.run_concat, hstart, himport, hcommit]

/-- The wallet received more than an `i64` holds. -/
theorem huge_not_exact : ¬ AlwaysExact balanceEnv := by
  intro h
  have hexact := h hugeRun
  have hrun : System.run balanceEnv.toEnv hugeRun = { db := hugeStore } := run_huge
  rw [hrun] at hexact
  have hload := ((account_fresh 0).synced fundedSnapshot huge_ofAccount 1000).load
  have hlist : ({ tx := hugeTx, chainPosition := .unconfirmed (some 1000) } : WalletTx) ∈
      balanceEnv.listTransactions hugeWallet := by
    show _ ∈ hugeWallet.canonical.map Prod.snd
    rw [huge_canonical]
    exact List.mem_cons_self
  have hlt := (hexact.amounts hload hlist).2
  have hreceived : exactSum (receivedValues balanceEnv hugeWallet hugeTx) = 0xffffffffffffffff := by
    rw [huge_received]
    decide
  have hsame : exactSum (receivedValues balanceEnv hugeWallet hugeTx) < 2 ^ 63 := hlt
  omega

end Fixture
end Tundra
