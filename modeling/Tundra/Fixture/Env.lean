/-
  Tundra.Fixture.Env

  The fixture's wallet and codecs as an environment of the engine: every
  function of the crates, with a proof of everything the engine relies on.
  What the engine's theorems assume is therefore consistent, and their runs can
  be looked at on real data.
-/

import Tundra.Fixture.Text
import Mathlib.Data.List.Infix
import Mathlib.Data.List.Pairwise

namespace Tundra
namespace Fixture

open Ascii Wire Relational Signing

/-! ## Hashes -/

/-- Double SHA-256 of the fixture's transactions. -/
def sha256d (bytes : Bytes) : Txid :=
  txidOfBytes ((digests.lookup bytes).getD (digest32 bytes))

def computeTxid (tx : Transaction) : Txid := sha256d (encodeLegacy tx)

def computeWtxid (tx : Transaction) : Txid := sha256d (serializeTx tx)

def draftText (txid : Bytes) : String := walletId ++ ":" ++ displayHash txid

def walletText : String :=
  "tundra:v1:regtest:" ++ displayDescriptor (accountDescriptor 0) ++ ":" ++
    displayDescriptor (accountDescriptor 1)

/-- SHA-256 of the texts that are used; zeros stand for all others. -/
def sha256Hex (text : String) : String :=
  if text = walletText then walletId
  else if text = draftText paymentTxid then paymentDraft
  else if text = draftText selfTxid then selfDraft
  else String.ofList (List.replicate 64 '0')

theorem sha256Hex_length (text : String) : (sha256Hex text).length = 64 := by
  rw [sha256Hex]
  split_ifs
  · decide
  · decide
  · decide
  · rw [String.length_ofList, List.length_replicate]

/-- The SIGHASH_ALL hash of an input. -/
def signatureHash (tx : Transaction) (index : Nat) : Bytes :=
  if computeTxid tx = txidOfBytes paymentTxid ∧ index = 0 then paymentHash
  else if computeTxid tx = txidOfBytes selfTxid ∧ index = 0 then selfHash
  else (computeTxid tx).bytes ++ leBytes 4 index

/-- The signatures that verify. -/
def verifyEcdsa (hash signature : Bytes) (key : SecpKey) : Bool :=
  ((hash = paymentHash ∧ signature = paymentSignature) ∨
    (hash = selfHash ∧ signature = selfSignature)) ∧ childKeys.lookup (0, 0) = some key.bytes

/-! ## Transactions -/

def nullTxid : Txid := txidOfBytes []

def isCoinbase (tx : Transaction) : Bool :=
  tx.previousOutputs = [{ txid := nullTxid, vout := 0xffffffff }]

def weight (tx : Transaction) : Nat := 3 * (encodeLegacy tx).length + (serializeTx tx).length

def vsize (tx : Transaction) : Nat := (weight tx + 3) / 4

/-- ASCII white space. -/
def isSpace (b : UInt8) : Bool := (9 ≤ b && b ≤ 13) || b = 32

def trimBytes (bytes : Bytes) : Bytes :=
  ((bytes.dropWhile isSpace).reverse.dropWhile isSpace).reverse

def decodeText (bytes : Bytes) : Option Bytes := readBase64 (trimBytes bytes)

/-! ## The transaction builder -/

/-- The fee of a transaction with single-key inputs and outputs, rounded up. -/
def buildFee (rate inputs outputs : Nat) : Nat :=
  (rate * (42 + 271 * inputs + 124 * outputs) + 999) / 1000

/-- The coins to spend: the selected ones, or the first that is large enough. -/
def chooseCoins (w : TestWallet) (params : BuildParams) : List LocalOutput :=
  match params.selected with
  | some ops => ops.filterMap (fun op => w.listUnspent.find? (fun c => c.outpoint = op))
  | none =>
      match params.target with
      | .addRecipient _ sats =>
          (w.listUnspent.filter (fun c => c.outpoint ∉ params.unspendable ∧
            sats.toNat + buildFee params.feeSatPerKwu.toNat 1 2 ≤ c.txout.value.toNat)).take 1
      | .drainTo _ => []

/-- The outputs, and whether one of them is a fresh change address. -/
def buildOutputs (w : TestWallet) (params : BuildParams) (coins : List LocalOutput) :
    Option (List TxOut × Bool) :=
  let total := (coins.map (fun c => c.txout.value.toNat)).sum
  match params.target with
  | .addRecipient script sats =>
      let fee := buildFee params.feeSatPerKwu.toNat coins.length 2
      if sats.toNat + fee + 294 ≤ total then
        some ([{ value := sats, scriptPubkey := script },
          { value := UInt64.ofNat (total - sats.toNat - fee)
            scriptPubkey := (w.revealNext .internal).1.scriptPubkey }], true)
      else none
  | .drainTo script =>
      let fee := buildFee params.feeSatPerKwu.toNat coins.length 1
      if fee + 294 ≤ total then
        some ([{ value := UInt64.ofNat (total - fee), scriptPubkey := script }], false)
      else none

/-- The PSBT input of a coin: its funding transaction, its output and its derivation. -/
def buildInput (w : TestWallet) (coin : LocalOutput) : PsbtInput :=
  let metadata := match w.derivationOfSpk coin.txout.scriptPubkey with
    | some (k, index) => derivations (w.descriptor k) index
    | none => ∅
  { nonWitnessUtxo := (w.getTx coin.outpoint.txid).map WalletTx.tx
    witnessUtxo := some coin.txout
    bip32Derivation := metadata }

def buildOutput (w : TestWallet) (output : TxOut) : PsbtOutput :=
  match w.derivationOfSpk output.scriptPubkey with
  | some (k, index) => { bip32Derivation := derivations (w.descriptor k) index }
  | none => {}

def buildTx (w : TestWallet) (coins : List LocalOutput) (outputs : List TxOut) : Transaction where
  version := 2
  lockTime := UInt32.ofNat w.tipHeight
  input := coins.map (fun c => { previousOutput := c.outpoint, sequence := 0xfffffffd })
  output := outputs

def buildPsbt (w : TestWallet) (coins : List LocalOutput) (outputs : List TxOut) : Psbt where
  unsignedTx := buildTx w coins outputs
  inputs := coins.map (buildInput w)
  outputs := outputs.map (buildOutput w)

/-- Every funding transaction is there, and has inputs. -/
def Funded (w : TestWallet) (coins : List LocalOutput) : Prop :=
  ∀ coin ∈ coins, ∀ tx, (w.getTx coin.outpoint.txid).map WalletTx.tx = some tx → tx.input ≠ []

instance (w : TestWallet) (coins : List LocalOutput) : Decidable (Funded w coins) :=
  decidable_of_iff (∀ coin ∈ coins, ∀ tx ∈ ((w.getTx coin.outpoint.txid).map WalletTx.tx).toList,
    tx.input ≠ []) (by simp only [Funded, Option.mem_toList])

theorem buildPsbt_wellFormed {w : TestWallet} {coins : List LocalOutput} (outputs : List TxOut)
    (h : Funded w coins) : (buildPsbt w coins outputs).WellFormed where
  unsigned := by
    intro i hi
    obtain ⟨c, _, rfl⟩ := List.mem_map.mp hi
    exact ⟨rfl, rfl⟩
  version := rfl
  proprietary := rfl
  unknown := rfl
  inputs_length := by simp [buildPsbt, buildTx]
  outputs_length := by simp [buildPsbt, buildTx]
  inputs_other := by
    intro i hi
    obtain ⟨c, _, rfl⟩ := List.mem_map.mp hi
    rfl
  outputs_other := by
    intro o ho
    obtain ⟨output, _, rfl⟩ := List.mem_map.mp ho
    rw [buildOutput]
    split <;> rfl
  funding_inputs := by
    intro i hi tx htx
    obtain ⟨c, hc, rfl⟩ := List.mem_map.mp hi
    exact h c hc tx htx

/-- `TxBuilder::finish`. -/
def finishTx (w : TestWallet) (params : BuildParams) : Option BuiltTx :=
  let coins := chooseCoins w params
  match buildOutputs w params coins with
  | some (outputs, revealsChange) =>
      -- the change address is revealed before its script is looked up
      let w' := if revealsChange then (w.revealNext .internal).2 else w
      if h : Funded w' coins then
        some
          { psbt := buildPsbt w' coins outputs
            wellFormed := buildPsbt_wellFormed outputs h
            revealsChange }
      else none
  | none => none

/-! ## The crates -/

/-- The genesis block of a network. -/
def genesisHash (network : Network) : Bytes :=
  leBytes 32 (match network with
    | .mainnet => 0x000000000019d6689c085ae165831e934ff763ae46a2a6c172b3f1b60a8ce26f
    | .signet => 0x00000008819873e925422c1ff0f99f7cc9bbb232af63a077a480a3633bee1ef6
    | .testnet => 0x000000000933ea01ad0ee984209779baaec3ced90fa3f408719526f8d77f4943
    | .regtest => 0x0f9188f13cb7b2c71f2a335e3a4fc328bf5beb436012afca590b1a11466e2206)

/-- The first 25 scripts of a keychain, as a new wallet recognises them. -/
def firstScripts (d : PublicDescriptor) (k : KeychainKind) : List (Script × KeychainKind × Nat) :=
  (List.range TestWallet.lookahead).map (fun index => (scriptPubkey (derive d index), k, index))

def createWallet (network : Network) (receive change : String) : Option TestWallet := do
  let external ← parseDescriptor receive
  let internal ← parseDescriptor change
  some
    { network
      external
      internal
      texts := (receive, change)
      recognised := firstScripts external .external ++ firstScripts internal .internal
      chain := (∅ : Table Nat BlockHash).insert 0 (genesisHash network) }

/-- The endpoints that are used. -/
def parseUrl (text : String) : Option Url :=
  if text = "http://127.0.0.1:3002" then
    some
      { scheme := "http"
        host := some "127.0.0.1"
        username := ""
        password := none
        query := none
        fragment := none
        text := "http://127.0.0.1:3002/" }
  else none

/-- The tables of a store with its manifest. -/
def tableNames (version : Nat) : List String :=
  ["backup_manifest", "broadcast_attempts", "draft_label_applications",
    "draft_signatures", "drafts", "finalized_drafts", "freezes", "hardware_registrations",
    "labels", "output_provenance", "reservations", "sync_state", "wallets"] ++
    if version = 7 then [] else ["recovered_submissions", "recovery_holds"]

def schemaRows (version : Nat) : List SchemaRow :=
  (tableNames version).map (fun name =>
    { kind := "table", name, tableName := name, sql := some ("CREATE TABLE " ++ name) })

def crates : Crates TestWallet TestWallet ChainScan where
  sha256Hex := sha256Hex
  computeTxid := computeTxid
  computeWtxid := computeWtxid
  displayTxid := displayTxid
  parseTxid := parseTxid
  displayOutPoint := displayOutPoint
  parseOutPoint := parseOutPoint
  isCoinbase := isCoinbase
  serializeTx := serializeTx
  deserializeTx := decodeAll decodeTx
  weight := weight
  vsize := vsize
  publicKeyBytes := publicKeyBytes
  signatureToVec := signatureToVec
  signatureFromSlice := signatureFromSlice
  p2wpkhSignatureHash tx index _ _ := some (signatureHash tx index)
  p2wshSignatureHash tx index _ _ := some (signatureHash tx index)
  verifyEcdsa := verifyEcdsa
  scriptPubkey := scriptPubkey
  explicitScript := explicitScript
  globalFields := globalFields
  inputFields := inputFields
  outputFields := outputFields
  deserializePsbt := readPsbt
  decodeText := decodeText
  encodeText := base64
  parseJson := parseJson
  descriptorPairJson := descriptorPairJson
  reviewJsonLength := reviewJsonLength
  stateJson := stateJson
  parseUrl := parseUrl
  schemaRows := schemaRows
  parseDescriptor := parseDescriptor
  displayDescriptor := displayDescriptor
  descriptorBody d := String.ofList (bodyChars d)
  sortKeys := sortKeys
  xpubInfo := xpubInfo
  displayXpub x := String.ofList (xpubChars x)
  displayKeySource k := String.ofList (keySourceChars k)
  parseKeySource := parseKeySource
  addressFromScript := addressFromScript
  parseAddress := parseAddress
  parseBlockHash := parseHash
  genesisHash := genesisHash
  createWallet := createWallet
  loadWallet network w := if w.network = network then some w else none
  takeStaged := some
  mergeState _ w := w
  replaceBlocks w scan := { w with chain := scan.blocks }
  applyUpdate w scan := w.applyUpdate computeTxid scan
  walletNetwork := TestWallet.network
  publicDescriptor := TestWallet.descriptor
  listUnspent := TestWallet.listUnspent
  listOutput := TestWallet.outputs
  getTx := TestWallet.getTx
  listTransactions w := w.canonical.map Prod.snd
  sentAndReceived := TestWallet.sentAndReceived
  tipHeight := TestWallet.tipHeight
  isMine w script := (w.derivationOfSpk script).isSome
  derivationOfSpk := TestWallet.derivationOfSpk
  calculateFee := TestWallet.calculateFee
  peekScript := TestWallet.peekScript
  peekAddress := TestWallet.peekAddress
  revealNextAddress := TestWallet.revealNext
  lookahead := TestWallet.lookahead
  deriveInput := deriveInput
  deriveOutput := deriveOutput
  addUtxos w ops := ops.all (fun op => w.listUnspent.any (fun c => c.outpoint = op))
  finishTx _ := finishTx

/-! ## Text payloads -/

theorem isSpace_base64 {bytes : Bytes} {b : UInt8} (h : b ∈ base64 bytes) : isSpace b = false := by
  have hrange := base64_range bytes b h
  have h₁ : ¬ b ≤ 13 := by
    rw [UInt8.le_iff_toNat_le]
    have : (13 : UInt8).toNat = 13 := rfl
    omega
  have h₂ : b ≠ 32 := by
    rintro rfl
    have : (32 : UInt8).toNat = 32 := rfl
    omega
  simp [isSpace, h₁, h₂]

theorem dropWhile_eq_self {p : UInt8 → Bool} {l : Bytes} (h : ∀ b ∈ l, p b = false) :
    l.dropWhile p = l := by
  cases l with
  | nil => rfl
  | cons b l => rw [List.dropWhile_cons_of_neg (by simp [h b (List.mem_cons_self ..)])]

theorem decodeText_base64 (bytes : Bytes) : decodeText (base64 bytes) = some bytes := by
  have hfront : (base64 bytes).dropWhile isSpace = base64 bytes :=
    dropWhile_eq_self fun b hb => isSpace_base64 hb
  have hback : (base64 bytes).reverse.dropWhile isSpace = (base64 bytes).reverse :=
    dropWhile_eq_self fun b hb => isSpace_base64 (List.mem_reverse.mp hb)
  rw [decodeText, trimBytes, hfront, hback, List.reverse_reverse, readBase64_base64]

/-- Base64 text is ASCII, the magic bytes are not. -/
theorem base64_magic (bytes : Bytes) : ¬ psbtMagic <+: base64 bytes := by
  intro h
  have hmem : (0xff : UInt8) ∈ base64 bytes := h.subset (by decide)
  have hrange := (base64_range bytes 0xff hmem).2
  exact absurd hrange (by decide)

/-! ## Scripts -/

theorem multisigScript_length (k : Nat) (keys : List PublicKey) :
    (multisigScript k keys).length ≤ 16 + 66 * keys.length := by
  have hsum : ∀ l : List Bytes, (∀ b ∈ l, b.length ≤ 65) →
      (l.flatMap (fun key => UInt8.ofNat key.length :: key)).length ≤ 66 * l.length := by
    intro l
    induction l with
    | nil => simp
    | cons b l ih =>
        intro h
        have hb := h b (List.mem_cons_self ..)
        have hl := ih (fun c hc => h c (List.mem_cons_of_mem _ hc))
        simp only [List.flatMap_cons, List.length_append, List.length_cons]
        omega
  have hkeys := hsum ((keys.map publicKeyBytes).insertionSort (fun a b => (compare a b).isLE))
    (fun b hb => by
      obtain ⟨key, _, rfl⟩ := List.mem_map.mp ((List.mem_insertionSort _).mp hb)
      exact publicKeyBytes_length key)
  rw [List.length_insertionSort, List.length_map] at hkeys
  simp only [multisigScript, List.length_cons, List.length_append, List.length_nil]
  omega

theorem addressFromScript_length {n : Network} {script : Script} {a : String}
    (h : addressFromScript n script = some a) : script.length ≤ 42 ∧ a.length ≤ 90 := by
  have hall : ∀ row ∈ addresses, row.1.length ≤ 42 ∧ row.2.length ≤ 90 := by
    decide +kernel
  rw [addressFromScript] at h
  split at h
  · rename_i text haddress
    cases h
    obtain ⟨before, after, hrows, _⟩ := List.lookup_eq_some_iff.mp haddress
    refine hall (script, a) ?_
    rw [hrows]
    exact List.mem_append_right _ (List.mem_cons_self ..)
  · split_ifs at h with hlen
    cases h
    refine ⟨hlen, ?_⟩
    rw [String.length_ofList, length_hexChars]
    omega

theorem derivations_size (d : PublicDescriptor) (index : Nat) :
    (derivations d index).size ≤ d.keys.length := by
  have hrows : ∀ (rows : List (SecpKey × KeySource)) (t : Table SecpKey KeySource) (k : SecpKey)
      (v : KeySource), (rows.foldl (fun t row => t.insert row.1 row.2) t)[k]? = some v →
      k ∈ rows.map Prod.fst ∨ t[k]? = some v := by
    intro rows
    induction rows with
    | nil => exact fun t k v h => .inr h
    | cons row rows ih =>
        intro t k v h
        rcases ih (t.insert row.1 row.2) k v h with hmem | hget
        · exact .inl (List.mem_cons_of_mem _ hmem)
        · rw [Table.get_insert] at hget
          split_ifs at hget with hk
          · exact .inl (hk ▸ List.mem_cons_self ..)
          · exact .inr hget
  have hkeys : ∀ (k : SecpKey) (v : KeySource), (derivations d index)[k]? = some v →
      k ∈ (d.keys.filterMap (derivationRow index)).map Prod.fst := fun k v h => by
    rcases hrows _ ∅ k v h with hmem | hget
    · exact hmem
    · simp at hget
  have hsize := Table.size_le_length hkeys
  have hlen := List.length_filterMap_le (derivationRow index) d.keys
  rw [List.length_map] at hsize
  omega

/-! ## The wallet -/

theorem listUnspent_pairwise (w : TestWallet) :
    w.listUnspent.Pairwise (fun a b => a.outpoint ≠ b.outpoint) :=
  List.pairwise_pwFilter _

theorem listUnspent_inj (w : TestWallet) : ∀ c ∈ w.listUnspent, ∀ c' ∈ w.listUnspent,
    c.outpoint = c'.outpoint → c = c' := by
  intro c hc c' hc' heq
  by_contra hne
  have hsymm : Std.Symm (fun a b : LocalOutput => a.outpoint ≠ b.outpoint) := ⟨fun _ _ h => h.symm⟩
  exact (listUnspent_pairwise w).forall hc hc' hne heq

theorem revealNext_derivation (w : TestWallet) (k : KeychainKind) (script : Script) :
    (w.revealNext k).2.derivationOfSpk script =
      match w.derivationOfSpk script with
      | some d => some d
      | none =>
          if script = w.peekScript k ((w.revealNext k).1.index + TestWallet.lookahead) then
            some (k, (w.revealNext k).1.index + TestWallet.lookahead)
          else none := by
  have hrecognised : (w.revealNext k).2.recognised = w.recognised ++
      [(w.peekScript k (w.nextIndex k + TestWallet.lookahead), k,
        w.nextIndex k + TestWallet.lookahead)] := rfl
  have hindex : (w.revealNext k).1.index = w.nextIndex k := rfl
  have hold : w.derivationOfSpk script = w.recognised.lookup script := rfl
  rw [TestWallet.derivationOfSpk, hrecognised, hindex, List.lookup_append, hold]
  cases hlookup : w.recognised.lookup script with
  | some d => rfl
  | none =>
      by_cases hscript : script = w.peekScript k (w.nextIndex k + TestWallet.lookahead)
      · simp [hscript]
      · have hbeq : (script == w.peekScript k (w.nextIndex k + TestWallet.lookahead)) = false := by
          simpa using hscript
        simp [List.lookup_cons, hbeq, hscript]

theorem network_revealNext (w : TestWallet) (k : KeychainKind) :
    (w.revealNext k).2.network = w.network := by
  cases k <;> rfl

theorem network_revealAll (w : TestWallet) (keychains : List KeychainKind) :
    (crates.revealAll w keychains).network = w.network := by
  induction keychains generalizing w with
  | nil => rfl
  | cons k keychains ih =>
      have hstep : crates.revealAll w (k :: keychains) =
          crates.revealAll (w.revealNext k).2 keychains := rfl
      rw [hstep, ih, network_revealNext]

/-- The coins of a transaction's inputs are what the wallet finds for them. -/
theorem mapM_find {w : TestWallet} : ∀ {coins found : List LocalOutput} {ops : List OutPoint},
    (∀ c ∈ coins, c ∈ w.listUnspent) → coins.map LocalOutput.outpoint = ops →
    ops.mapM (fun op => w.listUnspent.find? (fun c => c.outpoint = op)) = some found →
    found = coins := by
  intro coins
  induction coins with
  | nil =>
      rintro found ops _ rfl h
      simpa using h.symm
  | cons c coins ih =>
      rintro found ops hmem rfl h
      simp only [List.map_cons, List.mapM_cons, Option.bind_eq_bind, Option.bind_eq_some_iff,
        Option.pure_def, Option.some.injEq] at h
      obtain ⟨c', hc', rest, hrest, rfl⟩ := h
      have heq : c' = c := by
        have hout := List.find?_some hc'
        simp only [decide_eq_true_eq] at hout
        exact listUnspent_inj w c' (List.mem_of_find?_eq_some hc') c
          (hmem c (List.mem_cons_self ..)) hout
      rw [heq, ih (fun c hc => hmem c (List.mem_cons_of_mem _ hc)) rfl hrest]

theorem calculateFee_eq {w : TestWallet} {tx : Transaction} {fee : UInt64}
    {coins : List LocalOutput} (h : w.calculateFee tx = some fee)
    (hmem : ∀ c ∈ coins, c ∈ w.listUnspent)
    (hops : coins.map LocalOutput.outpoint = tx.previousOutputs) :
    (coins.map (fun c => c.txout.value.toNat)).sum =
      (tx.output.map (fun o => o.value.toNat)).sum + fee.toNat ∧
    (coins.map (fun c => c.txout.value.toNat)).sum < 2 ^ 63 := by
  simp only [TestWallet.calculateFee, Option.bind_eq_bind, Option.bind_eq_some_iff] at h
  obtain ⟨found, hfound, h⟩ := h
  have heq := mapM_find hmem hops hfound
  subst heq
  split_ifs at h with hle
  obtain ⟨hpaid, hbound⟩ := hle
  cases h
  refine ⟨?_, hbound⟩
  rw [UInt64.toNat_ofNat_of_lt' (by
    have : UInt64.size = 2 ^ 64 := rfl
    omega)]
  omega

/-! ## The environment -/

/-- The fixture's crates, with what the engine relies on. -/
def env : Env TestWallet TestWallet ChainScan where
  toCrates := crates
  sha256Hex_length := sha256Hex_length
  parseOutPoint_display := parseOutPoint_display
  displayOutPoint_length := displayOutPoint_length
  decodeText_encodeText := decodeText_base64
  encodeText_length := length_base64
  encodeText_magic := base64_magic
  publicKeyBytes_length := publicKeyBytes_length
  signatureToVec_length := by
    intro hash s key h
    have hlen : s.signature.length = 71 := by
      have hverify : verifyEcdsa hash s.signature key = true := h
      simp only [verifyEcdsa, decide_eq_true_eq] at hverify
      rcases hverify.1 with ⟨-, hsig⟩ | ⟨-, hsig⟩
      · rw [hsig]
        decide +kernel
      · rw [hsig]
        decide +kernel
    have hvec : (signatureToVec s).length = s.signature.length + 1 := by simp [signatureToVec]
    have hgoal : (signatureToVec s).length ≤ 73 := by
      rw [hvec]
      omega
    exact hgoal
  explicitScript_length := by
    intro k keys script h
    cases h
    exact multisigScript_length k keys
  addressFromScript_length := fun n _ _ h => addressFromScript_length (n := n) h
  deserializeTx_serializeTx := fun tx hne hlen =>
    decodeTx_all hne (bounded_of_length hlen (by decide))
  serializeTx_length := length_serializeTx_le
  reviewJsonLength_le := reviewJsonLength_le
  globalFields_inputs := fun _ _ => rfl
  inputFields_perm := inputFields_perm
  inputFields_length := fun _ hother hsigs => inputFields_length hother hsigs
  globalFields_key := globalFields_key
  inputFields_key := inputFields_key
  outputFields_key := outputFields_key
  globalFields_shape := by
    intro p value i o hp hlen hmem hshape
    have hvalue : value = encodeLegacy p.unsignedTx := by
      have hfields : (([0], value) : Bytes × Bytes) ∈ globalFields p := hmem
      rw [globalFields, hp.version, hp.proprietary, hp.unknown] at hfields
      rcases List.mem_cons.mp hfields with heq | hrest
      · cases heq
        rfl
      · simp only [versionFields, if_true, rawFields, List.filter_nil, List.append_nil] at hrest
        obtain ⟨row, _, heq⟩ := List.mem_map.mp hrest
        cases heq
    subst hvalue
    have hlegacy : serializeTx p.unsignedTx = encodeLegacy p.unsignedTx :=
      if_pos fun i hi => (hp.unsigned i hi).2
    exact transactionShape_encodeLegacy hp.unsigned
      (bounded_of_length (hlegacy ▸ hlen) (by decide)) hshape
  deserializePsbt_serializePsbt := fun _ hp hlen => readPsbt_writePsbt hp hlen
  deserializePsbt_lengths := fun _ _ _ h => readPsbt_lengths h
  isMine_eq := fun _ _ => rfl
  listUnspent_inj := listUnspent_inj
  calculateFee_eq := fun _ _ _ _ h hmem hops => calculateFee_eq h hmem hops
  deriveInput_wpkh := by
    intro d index metadata key h
    have hd : (⟨{ witnessScript := explicitScript (derive d index)
                  bip32Derivation := derivations d index }, derive d index⟩ :
        PsbtInput × Descriptor) = (metadata, .wpkh key) := Option.some.inj h
    have hsize := derivations_size d index
    cases d with
    | wpkh k =>
        cases hd
        exact hsize
    | wshSortedMulti k keys => cases hd
    | other keys => cases hd
  deriveInput_wsh := by
    intro d index metadata k keys h
    have hd : (⟨{ witnessScript := explicitScript (derive d index)
                  bip32Derivation := derivations d index }, derive d index⟩ :
        PsbtInput × Descriptor) = (metadata, .wshSortedMulti k keys) := Option.some.inj h
    have hsize := derivations_size d index
    cases d with
    | wpkh k => cases hd
    | wshSortedMulti k keys =>
        cases hd
        rw [List.length_map]
        exact hsize
    | other keys => cases hd
  revealNextAddress_frame := fun w k => by
    cases k <;> exact ⟨rfl, rfl, rfl, rfl, rfl⟩
  revealNextAddress_derivation := revealNext_derivation
  loadWallet_savedState := by
    intro n state w keychains h
    have hload : (if state.network = n then some state else none) = some w := h
    split_ifs at hload with hnet
    cases hload
    have hreveal := network_revealAll state keychains
    refine ⟨crates.revealAll state keychains, ?_, ⟨rfl, rfl, rfl, rfl, rfl, rfl⟩⟩
    exact if_pos (hreveal.trans hnet)

end Fixture
end Tundra
