/-
  Tundra.Fixture.Chain

  The fixture's wallet seen by a chain scan: its checkpoints and observations,
  the JSON of an Esplora server, block headers and their hashes.
-/

import Tundra.Fixture.Env

namespace Tundra
namespace Fixture

open Ascii Wire Relational

/-! ## Answers of a server -/

def jsonNat : Json → Option Nat
  | .number text => readDecimal text.toList
  | _ => none

def statusOfJson (v : Json) : Option Status := do
  let confirmed ← (v.get "confirmed").bind Json.asBool
  some
    { confirmed
      blockHeight := (v.get "block_height").bind jsonNat
      blockHash := ((v.get "block_hash").bind Json.asStr).bind parseHash
      blockTime := (v.get "block_time").bind jsonNat }

def historyOfJson (v : Json) : Option History := do
  let txid ← ((v.get "txid").bind Json.asStr).bind parseTxid
  let status ← (v.get "status").bind statusOfJson
  some { txid, status }

def proofOfJson (v : Json) : Option Proof := do
  let blockHeight ← (v.get "block_height").bind jsonNat
  let merkle ← (v.get "merkle").bind Json.asArray
  let merkle ← merkle.mapM (fun item => item.asStr.bind parseTxid)
  let pos ← (v.get "pos").bind jsonNat
  some { blockHeight, merkle, pos }

def jsonOfBytes (bytes : Bytes) : Option Json :=
  (String.fromUTF8? ⟨bytes.toArray⟩).bind parseJson

def parseHistory (bytes : Bytes) : Option (List History) :=
  (jsonOfBytes bytes).bind (fun v => v.asArray.bind (fun items => items.mapM historyOfJson))

/-! ## Headers -/

def serializeHeader (header : Header) : Bytes :=
  encodeU32 header.version ++ (header.prevBlockhash ++ (header.merkleRoot ++
    (encodeU32 header.time ++ (encodeU32 header.bits ++ encodeU32 header.nonce))))

def word (bytes : Bytes) (start : Nat) : UInt32 :=
  UInt32.ofNat (((bytes.drop start).take 4).foldr (fun b n => b.toNat + 256 * n) 0)

/-- A header of 80 bytes. -/
def deserializeHeader (bytes : Bytes) : Option Header :=
  if bytes.length = 80 then
    some
      { version := word bytes 0
        prevBlockhash := (bytes.drop 4).take 32
        merkleRoot := (bytes.drop 36).take 32
        time := word bytes 68
        bits := word bytes 72
        nonce := word bytes 76 }
  else none

/-! ## Snapshots -/

theorem lastTime_insert (t : Table Txid Nat) (row : Txid × Nat) (txid : Txid) :
    (TestWallet.stamp t row)[txid]? =
      if row.1 = txid then some (max row.2 ((t[txid]?).getD 0)) else t[txid]? := by
  rw [TestWallet.stamp, Table.get_insert]
  by_cases h : row.1 = txid
  · rw [if_pos h, if_pos h, h]
  · rw [if_neg h, if_neg h]

/-- Stamping the rows of an update keeps the later of two times. -/
theorem get_foldl_stamp (rows : List (Txid × Nat)) (t : Table Txid Nat) (txid : Txid) :
    (rows.foldl TestWallet.stamp t)[txid]? = latestTime t[txid]? (timesOf rows txid) := by
  induction rows generalizing t with
  | nil => rfl
  | cons row rows ih =>
      rw [List.foldl_cons, ih, lastTime_insert, timesOf, timesOf]
      by_cases h : row.1 = txid
      · rw [if_pos h, List.filter_cons_of_pos (by simp [h]), List.map_cons]
        rfl
      · rw [if_neg h, List.filter_cons_of_neg (by simp [h])]

/-- The parts of a wallet that revealing an address keeps. -/
theorem chain_revealNext (w : TestWallet) (k : KeychainKind) :
    (w.revealNext k).2.chain = w.chain ∧ (w.revealNext k).2.lastSeen = w.lastSeen ∧
    (w.revealNext k).2.lastEvicted = w.lastEvicted := by
  cases k <;> exact ⟨rfl, rfl, rfl⟩

theorem chain_revealAll (w : TestWallet) (keychains : List KeychainKind) :
    (crates.revealAll w keychains).chain = w.chain ∧
    (crates.revealAll w keychains).lastSeen = w.lastSeen ∧
    (crates.revealAll w keychains).lastEvicted = w.lastEvicted := by
  induction keychains generalizing w with
  | nil => exact ⟨rfl, rfl, rfl⟩
  | cons k keychains ih =>
      obtain ⟨hchain, hseen, hevicted⟩ := ih (w.revealNext k).2
      obtain ⟨hchain', hseen', hevicted'⟩ := chain_revealNext w k
      exact ⟨hchain.trans hchain', hseen.trans hseen', hevicted.trans hevicted'⟩

theorem chain_revealTo (k : KeychainKind) (index fuel : Nat) (w : TestWallet) :
    (w.revealTo k index fuel).chain = w.chain := by
  induction fuel generalizing w with
  | zero => rfl
  | succ fuel ih =>
      rw [TestWallet.revealTo]
      split_ifs
      · exact (ih _).trans (chain_revealNext w k).1
      · rfl

theorem chain_revealActive (w : TestWallet) (active : List (KeychainKind × Nat)) :
    (w.revealActive active).chain = w.chain := by
  induction active generalizing w with
  | nil => rfl
  | cons k active ih =>
      have hstep : w.revealActive (k :: active) =
          (TestWallet.revealTo k.1 k.2 (k.2 + 1) w).revealActive active := rfl
      rw [hstep, ih, chain_revealTo]

theorem revealAll_chain {n : Network} {state w : TestWallet} (keychains : List KeychainKind)
    (h : env.loadWallet n state = some w) :
    (env.revealAll w keychains).chain = state.chain ∧
    (env.revealAll w keychains).lastSeen = state.lastSeen ∧
    (env.revealAll w keychains).lastEvicted = state.lastEvicted := by
  have hw : (if state.network = n then some state else none) = some w := h
  split_ifs at hw
  cases hw
  exact chain_revealAll state keychains

theorem createWallet_chain {n : Network} {receive change : String} {w : TestWallet}
    (h : env.createWallet n receive change = some w) :
    w.chain[0]? = some (genesisHash n) ∧ w.lastRevealed = (fun _ => none) ∧
    w.lastSeen = ∅ ∧ w.lastEvicted = ∅ := by
  have hcreate : createWallet n receive change = some w := h
  simp only [createWallet, Option.bind_eq_bind, Option.bind_eq_some_iff] at hcreate
  obtain ⟨external, _, internal, _, heq⟩ := hcreate
  cases heq
  refine ⟨Table.get_insert_self _ _ _, ?_, rfl, rfl⟩
  funext k
  cases k <;> rfl

theorem applyUpdate_chain {n : Network} {state w w' : TestWallet} {scan : ChainScan}
    (h : env.loadWallet n state = some w) (happly : env.applyUpdate w scan = some w') :
    w'.chain = state.chain ∧
    (∀ txid : Txid, w'.lastSeen[txid]? =
      latestTime state.lastSeen[txid]? (timesOf scan.update.seenAts txid)) ∧
    ∀ txid : Txid, w'.lastEvicted[txid]? =
      latestTime state.lastEvicted[txid]? (timesOf scan.update.evictedAts txid) := by
  have hw : (if state.network = n then some state else none) = some w := h
  split_ifs at hw
  cases hw
  have hw' : state.applyUpdate computeTxid scan = some w' := happly
  rw [TestWallet.applyUpdate] at hw'
  split_ifs at hw'
  cases hw'
  refine ⟨chain_revealActive state _, fun txid => ?_, fun txid => ?_⟩
  · exact get_foldl_stamp scan.update.seenAts state.lastSeen txid
  · exact get_foldl_stamp scan.update.evictedAts state.lastEvicted txid

/-! ## The environment of a scan -/

-- the record of laws is deeper than the default limit
set_option maxRecDepth 2000 in
/-- The fixture's environment with what a chain scan calls. -/
def chainEnv : ChainEnv TestWallet TestWallet where
  toEnv := env
  scriptHash script := String.ofList (hexChars (digest32 script))
  sha256d bytes := (sha256d bytes).bytes
  displayBlockHash := displayHash
  parseHistory := parseHistory
  parseProof bytes := (jsonOfBytes bytes).bind proofOfJson
  fromHex text := readHex text.toList
  deserializeHeader := deserializeHeader
  headerHash header := (sha256d (serializeHeader header)).bytes
  derivationIndex := TestWallet.lastRevealed
  checkpoints w := w.chain.toList.reverse
  transactions w := w.canonical.map Prod.fst
  chainBlocks := TestWallet.chain
  lastRevealed := TestWallet.lastRevealed
  lastSeen w txid := w.lastSeen[txid]?
  lastEvicted w txid := w.lastEvicted[txid]?
  createWallet_chain := by
    intro n receive change w state hcreate hstaged
    obtain rfl : w = state := Option.some.inj hstaged
    obtain ⟨hchain, hrevealed, hseen, hevicted⟩ := createWallet_chain hcreate
    refine ⟨hchain, hrevealed, ?_, ?_⟩
    · funext txid
      rw [hseen, Std.ExtTreeMap.getElem?_empty]
    · funext txid
      rw [hevicted, Std.ExtTreeMap.getElem?_empty]
  savedState_revealAll := by
    intro n state w keychains hload
    obtain ⟨hchain, hseen, hevicted⟩ := revealAll_chain keychains hload
    refine ⟨hchain, ?_, ?_⟩
    · funext txid
      exact congrArg (fun t : Table Txid Nat => t[txid]?) hseen
    · funext txid
      exact congrArg (fun t : Table Txid Nat => t[txid]?) hevicted
  replaceBlocks_chain := fun _ _ => ⟨rfl, by funext k; cases k <;> rfl, rfl, rfl⟩
  applyUpdate_chain := fun _ _ _ _ _ hload happly => applyUpdate_chain hload happly

end Fixture
end Tundra
