/-
  Tundra.Env

  The third-party crates the engine calls, as one record of functions: the
  `bitcoin` crate (hashes, texts, encodings, PSBTs), secp256k1, miniscript,
  BDK, serde_json and the URL parser.  The snapshot a wallet is stored as
  (`State`, a BDK change set), the loaded `Wallet` and the data of a finished
  chain scan (`Scan`) are abstract types.

  The last group of fields states what the engine relies on: that encodings
  read back, how long they are, and what revealing an address does to a BDK
  wallet.  Every instance has to prove these, so a theorem over an arbitrary
  `Env` needs no further hypothesis about the crates.
-/

import Tundra.Model
import Tundra.Text
import Tundra.Signing.Limits

namespace Tundra

open Relational Wire Signing

/-! ## Descriptors -/

inductive KeychainKind where
  | external
  | internal
  deriving DecidableEq, Repr

inductive Wildcard where
  | none
  | unhardened
  | hardened
  deriving DecidableEq, Repr

/-- `DescriptorXKey<Xpub>`. -/
structure DescriptorXKey where
  origin : Option KeySource
  xkey : Xpub
  derivationPath : List UInt32
  wildcard : Wildcard
  deriving DecidableEq, Repr

/-- `DescriptorPublicKey`; single keys and multipath keys are `other`. -/
inductive DescriptorPublicKey where
  | xpub (key : DescriptorXKey)
  | other (text : String)
  deriving DecidableEq, Repr

/-- `Descriptor<DescriptorPublicKey>`: the two supported forms, or another
    form with its keys. -/
inductive PublicDescriptor where
  | wpkh (key : DescriptorPublicKey)
  | wshSortedMulti (k : Nat) (keys : List DescriptorPublicKey)
  | other (keys : List DescriptorPublicKey)
  deriving DecidableEq, Repr

/-- The keys `for_each_key` visits. -/
def PublicDescriptor.keys : PublicDescriptor → List DescriptorPublicKey
  | .wpkh key => [key]
  | .wshSortedMulti _ keys => keys
  | .other keys => keys

/-- `Descriptor<PublicKey>`, derived at one index. -/
inductive Descriptor where
  | wpkh (key : PublicKey)
  | wshSortedMulti (k : Nat) (keys : List PublicKey)
  | other
  deriving DecidableEq

/-- The parts of an extended key that the importer checks. -/
structure XpubInfo where
  isMainnet : Bool
  depth : Nat
  /-- The public key and chain code. -/
  material : String

/-! ## Wallet data -/

/-- `ChainPosition`: confirmed at a height, or unconfirmed and perhaps seen. -/
inductive ChainPosition where
  | confirmed (height : Nat)
  | unconfirmed (lastSeen : Option Nat)
  deriving DecidableEq, Repr

structure LocalOutput where
  outpoint : OutPoint
  txout : TxOut
  chainPosition : ChainPosition
  deriving DecidableEq, Repr

structure WalletTx where
  tx : Transaction
  chainPosition : ChainPosition
  deriving DecidableEq, Repr

structure AddressInfo where
  index : Nat
  address : String
  scriptPubkey : Script
  deriving DecidableEq, Repr

/-- Where the value of a built transaction goes. -/
inductive BuildTarget where
  | addRecipient (script : Script) (sats : UInt64)
  | drainTo (script : Script)
  deriving DecidableEq, Repr

/-- The settings of a `TxBuilder`. -/
structure BuildParams where
  feeSatPerKwu : UInt64
  unspendable : List OutPoint
  /-- `add_utxos` followed by `manually_selected_only`. -/
  selected : Option (List OutPoint)
  target : BuildTarget

/-- What `TxBuilder::finish` returns, and whether it took a fresh change address. -/
structure BuiltTx where
  psbt : Psbt
  wellFormed : psbt.WellFormed
  revealsChange : Bool

/-- A row of `sqlite_master`: type, name, table name and SQL text. -/
structure SchemaRow where
  kind : String
  name : String
  tableName : String
  sql : Option String
  deriving DecidableEq, Repr

structure Url where
  scheme : String
  host : Option String
  username : String
  password : Option String
  query : Option String
  fragment : Option String
  text : String
  deriving DecidableEq, Repr

/-! ## The functions of the crates -/

/-- The functions of the third-party crates. -/
structure Crates (State Wallet Scan : Type) where
  /-- `sha256::Hash::hash(text.as_bytes()).to_string()`. -/
  sha256Hex : String → String
  computeTxid : Transaction → Txid
  computeWtxid : Transaction → Txid
  displayTxid : Txid → String
  parseTxid : String → Option Txid
  displayOutPoint : OutPoint → String
  parseOutPoint : String → Option OutPoint
  isCoinbase : Transaction → Bool
  /-- `consensus::serialize`. -/
  serializeTx : Transaction → Bytes
  /-- `consensus::deserialize`. -/
  deserializeTx : Bytes → Option Transaction
  weight : Transaction → Nat
  vsize : Transaction → Nat
  /-- `PublicKey::to_bytes`. -/
  publicKeyBytes : PublicKey → Bytes
  signatureToVec : Signature → Bytes
  signatureFromSlice : Bytes → Option Signature
  /-- The SIGHASH_ALL hash of one input under a script and a value. -/
  p2wpkhSignatureHash : Transaction → Nat → Script → UInt64 → Option Bytes
  p2wshSignatureHash : Transaction → Nat → Script → UInt64 → Option Bytes
  /-- Is the DER signature valid for the hash and the key? -/
  verifyEcdsa : Bytes → Bytes → SecpKey → Bool
  scriptPubkey : Descriptor → Script
  explicitScript : Descriptor → Option Script
  /-- The key-value fields of the three kinds of PSBT map. -/
  globalFields : Psbt → RawFields
  inputFields : PsbtInput → RawFields
  outputFields : PsbtOutput → RawFields
  /-- `Psbt::deserialize_from_reader`, with the bytes it left. -/
  deserializePsbt : Bytes → Option (Psbt × Bytes)
  /-- UTF-8, `trim` and base64 decoding of a text payload. -/
  decodeText : Bytes → Option Bytes
  /-- The UTF-8 bytes of the base64 text. -/
  encodeText : Bytes → Bytes
  /-- `serde_json::from_str`. -/
  parseJson : String → Option Json
  /-- The text of `{"descriptors":[..]}` with a receive and a change descriptor. -/
  descriptorPairJson : String → String → String
  /-- The length of `serde_json::to_string` of a review, in bytes. -/
  reviewJsonLength : DraftReview → Nat
  /-- `serde_json::to_string` of a wallet snapshot. -/
  stateJson : State → String
  parseUrl : String → Option Url
  /-- `sqlite_master` by name, after the schema of a version and the backup
      manifest's table have been created. -/
  schemaRows : Nat → List SchemaRow
  parseDescriptor : String → Option PublicDescriptor
  /-- A descriptor with its checksum. -/
  displayDescriptor : PublicDescriptor → String
  /-- A descriptor without its checksum. -/
  descriptorBody : PublicDescriptor → String
  sortKeys : List DescriptorPublicKey → List DescriptorPublicKey
  xpubInfo : Xpub → XpubInfo
  displayXpub : Xpub → String
  /-- A key origin as `fingerprint/path`. -/
  displayKeySource : KeySource → String
  /-- A fingerprint and a derivation path. -/
  parseKeySource : String → String → Option KeySource
  addressFromScript : Network → Script → Option String
  /-- An address text, and its script once its network is required. -/
  parseAddress : String → Option (Network → Option Script)
  parseBlockHash : String → Option Bytes
  genesisHash : Network → Bytes
  createWallet : Network → String → String → Option Wallet
  /-- `Wallet::load` with `check_network`. -/
  loadWallet : Network → State → Option Wallet
  takeStaged : Wallet → Option State
  mergeState : State → State → State
  /-- The snapshot with its local chain replaced by a scan's blocks. -/
  replaceBlocks : State → Scan → State
  /-- `apply_update` with a scan's update. -/
  applyUpdate : Wallet → Scan → Option Wallet
  walletNetwork : Wallet → Network
  publicDescriptor : Wallet → KeychainKind → PublicDescriptor
  listUnspent : Wallet → List LocalOutput
  listOutput : Wallet → List OutPoint
  getTx : Wallet → Txid → Option WalletTx
  /-- `transactions`: the canonical ones, in the order of the history. -/
  listTransactions : Wallet → List WalletTx
  /-- What a transaction spends of the wallet's, and pays to it. -/
  sentAndReceived : Wallet → Transaction → UInt64 × UInt64
  tipHeight : Wallet → Nat
  isMine : Wallet → Script → Bool
  derivationOfSpk : Wallet → Script → Option (KeychainKind × Nat)
  calculateFee : Wallet → Transaction → Option UInt64
  /-- The script of a keychain at an index. -/
  peekScript : Wallet → KeychainKind → Nat → Script
  peekAddress : Wallet → KeychainKind → Nat → String
  revealNextAddress : Wallet → KeychainKind → AddressInfo × Wallet
  /-- How many scripts past the last revealed one a keychain recognises. -/
  lookahead : Nat
  /-- `at_derivation_index` and `update_with_descriptor_unchecked` on an input. -/
  deriveInput : PublicDescriptor → Nat → Option (PsbtInput × Descriptor)
  /-- The same on an output. -/
  deriveOutput : PublicDescriptor → Nat → Option (PsbtOutput × Descriptor)
  addUtxos : Wallet → List OutPoint → Bool
  /-- `TxBuilder::finish`, with the randomness of coin selection as a seed. -/
  finishTx : Nat → Wallet → BuildParams → Option BuiltTx

namespace Crates

variable {State Wallet Scan : Type} (env : Crates State Wallet Scan)

/-- `Psbt::serialize`: the magic bytes, then one map for the transaction and
    one for each input and output. -/
def serializePsbt (p : Psbt) : Bytes :=
  psbtMagic ++ (encodeMap (env.globalFields p) ++
    (p.inputs.map env.inputFields ++ p.outputs.map env.outputFields).flatMap encodeMap)

/-- `Psbt::to_string`. -/
def psbtText (p : Psbt) : Bytes := env.encodeText (env.serializePsbt p)

/-- The field of one partial signature. -/
def signatureField (entry : PublicKey × Signature) : Bytes × Bytes :=
  (0x02 :: env.publicKeyBytes entry.1, env.signatureToVec entry.2)

/-- A snapshot after the changes staged in a wallet. -/
def savedState (state : State) (w : Wallet) : State :=
  match env.takeStaged w with
  | some changes => env.mergeState state changes
  | none => state

/-- The wallet after revealing the next address of each keychain in turn. -/
def revealAll (w : Wallet) (keychains : List KeychainKind) : Wallet :=
  keychains.foldl (fun w k => (env.revealNextAddress w k).2) w

/-- The script that becomes recognised when the next address is revealed. -/
def nextRecognised (w : Wallet) (k : KeychainKind) : Script :=
  env.peekScript w k ((env.revealNextAddress w k).1.index + env.lookahead)

/-- Two wallets that answer every question the engine asks alike. -/
structure SameView (w w' : Wallet) : Prop where
  listUnspent : env.listUnspent w' = env.listUnspent w
  listOutput : env.listOutput w' = env.listOutput w
  getTx : env.getTx w' = env.getTx w
  tipHeight : env.tipHeight w' = env.tipHeight w
  publicDescriptor : env.publicDescriptor w' = env.publicDescriptor w
  derivationOfSpk : env.derivationOfSpk w' = env.derivationOfSpk w

end Crates

/-! ## What the engine relies on -/

/-- The crates, with their documented behaviour. -/
structure Env (State Wallet Scan : Type) extends Crates State Wallet Scan where
  sha256Hex_length : ∀ s, (sha256Hex s).length = 64
  parseOutPoint_display : ∀ op, parseOutPoint (displayOutPoint op) = some op
  displayOutPoint_length : ∀ op, (displayOutPoint op).length ≤ 75
  decodeText_encodeText : ∀ b, decodeText (encodeText b) = some b
  encodeText_length : ∀ b, (encodeText b).length = (b.length + 2) / 3 * 4
  /-- Base64 text has no `0xff` byte. -/
  encodeText_magic : ∀ b, ¬ psbtMagic <+: encodeText b
  publicKeyBytes_length : ∀ k, (publicKeyBytes k).length ≤ 65
  /-- A DER signature has at most 72 bytes. -/
  signatureToVec_length : ∀ hash s k, verifyEcdsa hash s.signature k = true →
    (signatureToVec s).length ≤ 73
  explicitScript_length : ∀ k keys script,
    explicitScript (.wshSortedMulti k keys) = some script → script.length ≤ 16 + 66 * keys.length
  /-- An address stands for a script of at most 42 bytes. -/
  addressFromScript_length : ∀ n script a, addressFromScript n script = some a →
    script.length ≤ 42 ∧ a.length ≤ 90
  /-- Consensus serialization reads back. -/
  deserializeTx_serializeTx : ∀ tx, tx.input ≠ [] → (serializeTx tx).length ≤ maxPsbtBytes →
    deserializeTx (serializeTx tx) = some tx
  serializeTx_length : ∀ tx, (serializeTx tx).length ≤ 64 +
    (tx.input.map (fun i => 64 + i.scriptSig.length +
      (i.witness.map (fun w => 9 + w.length)).sum)).sum +
    (tx.output.map (fun o => 32 + o.scriptPubkey.length)).sum
  /-- A serialized JSON character takes at most six bytes. -/
  reviewJsonLength_le : ∀ r, reviewJsonLength r ≤
    512 + 6 * (r.id.length + r.walletId.length + r.label.length + r.state.text.length) +
    (r.inputs.map (fun i => 128 + 6 * (i.outpoint.length + i.label.length))).sum +
    (r.outputs.map (fun o => 128 + 6 * o.address.length)).sum
  /-- The global map of a PSBT does not depend on its inputs. -/
  globalFields_inputs : ∀ p inputs, globalFields { p with inputs := inputs } = globalFields p
  /-- Partial signatures are fields of their own. -/
  inputFields_perm : ∀ i, (inputFields i).Perm
    (i.partialSigs.toList.map toCrates.signatureField ++ inputFields i.stripSignatures)
  inputFields_length : ∀ i, i.other = [] → i.partialSigs = ∅ →
    (inputFields i).length ≤ 8 + i.bip32Derivation.size
  globalFields_key : ∀ p, ∀ f ∈ globalFields p, f.1 ≠ []
  inputFields_key : ∀ i, ∀ f ∈ inputFields i, f.1 ≠ []
  outputFields_key : ∀ o, ∀ f ∈ outputFields o, f.1 ≠ []
  /-- The unsigned transaction is serialized with its own numbers of inputs and outputs. -/
  globalFields_shape : ∀ p value i o, p.WellFormed → value.length ≤ maxPsbtBytes →
    ([0], value) ∈ globalFields p → transactionShape value = .ok (i, o) →
    i = p.unsignedTx.input.length ∧ o = p.unsignedTx.output.length
  /-- A PSBT reads back from its own serialization. -/
  deserializePsbt_serializePsbt : ∀ p, p.WellFormed →
    (toCrates.serializePsbt p).length ≤ maxPsbtBytes →
    deserializePsbt (toCrates.serializePsbt p) = some (p, [])
  /-- The crate reads exactly one map for each input and output. -/
  deserializePsbt_lengths : ∀ b p rest, deserializePsbt b = some (p, rest) →
    p.inputs.length = p.unsignedTx.input.length ∧ p.outputs.length = p.unsignedTx.output.length
  isMine_eq : ∀ w script, isMine w script = (derivationOfSpk w script).isSome
  listUnspent_inj : ∀ w, ∀ c ∈ listUnspent w, ∀ c' ∈ listUnspent w,
    c.outpoint = c'.outpoint → c = c'
  /-- The fee is what the unspent outputs a transaction spends hold beyond its outputs. -/
  calculateFee_eq : ∀ w tx fee (coins : List LocalOutput), calculateFee w tx = some fee →
    (∀ c ∈ coins, c ∈ listUnspent w) → coins.map LocalOutput.outpoint = tx.previousOutputs →
    (coins.map (fun c => c.txout.value.toNat)).sum =
      (tx.output.map (fun o => o.value.toNat)).sum + fee.toNat ∧
    (coins.map (fun c => c.txout.value.toNat)).sum < 2 ^ 63
  /-- An input's derivations are those of its descriptor's keys. -/
  deriveInput_wpkh : ∀ d index metadata key, deriveInput d index = some (metadata, .wpkh key) →
    metadata.bip32Derivation.size ≤ 1
  deriveInput_wsh : ∀ d index metadata k keys,
    deriveInput d index = some (metadata, .wshSortedMulti k keys) →
    metadata.bip32Derivation.size ≤ keys.length
  /-- Revealing an address changes no coin, transaction or descriptor, and
      makes one more script of the keychain recognised. -/
  revealNextAddress_frame : ∀ w k,
    listUnspent (revealNextAddress w k).2 = listUnspent w ∧
    listOutput (revealNextAddress w k).2 = listOutput w ∧
    getTx (revealNextAddress w k).2 = getTx w ∧
    tipHeight (revealNextAddress w k).2 = tipHeight w ∧
    publicDescriptor (revealNextAddress w k).2 = publicDescriptor w
  revealNextAddress_derivation : ∀ w k script,
    derivationOfSpk (revealNextAddress w k).2 script =
      match derivationOfSpk w script with
      | some d => some d
      | none =>
          if script = toCrates.nextRecognised w k then
            some (k, (revealNextAddress w k).1.index + lookahead)
          else none
  /-- A wallet loads again from its saved snapshot, with the same view. -/
  loadWallet_savedState : ∀ n state w keychains, loadWallet n state = some w →
    ∃ w', loadWallet n (toCrates.savedState state (toCrates.revealAll w keychains)) = some w' ∧
      toCrates.SameView (toCrates.revealAll w keychains) w'

end Tundra
