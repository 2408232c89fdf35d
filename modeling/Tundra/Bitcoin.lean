/-
  Tundra.Bitcoin

  The Bitcoin data the engine reads: transactions, public keys, ECDSA
  signatures and PSBTs, with the fields of the `bitcoin` crate's types.

  A byte string, a script and a key are lists of bytes.  The maps of a PSBT
  are `Table`s, as the crate's are `BTreeMap`s.  PSBT fields that the engine
  only ever compares with "absent" (preimages, taproot, proprietary and
  unknown fields) are kept together, as raw key-value pairs, in `other`.
-/

import Tundra.Lib.Table

namespace Tundra

open Relational Std

abbrev Bytes := List UInt8

abbrev Script := Bytes

instance lawfulBEqBytes : LawfulBEq Bytes := inferInstanceAs (LawfulBEq (List UInt8))

/-! ## Transactions -/

/-- A transaction id, in internal byte order. -/
structure Txid where
  bytes : Bytes
  size : bytes.length = 32
  deriving DecidableEq, Repr

instance : Ord Txid := ⟨compareOn Txid.bytes⟩

instance : TransOrd Txid :=
  inferInstanceAs (TransCmp (compareOn Txid.bytes))

instance : LawfulEqOrd Txid where
  eq_of_compare {a b} h := by
    have hb : a.bytes = b.bytes := by
      exact LawfulEqOrd.eq_of_compare h
    cases a
    cases b
    simp_all

structure OutPoint where
  txid : Txid
  vout : UInt32
  deriving DecidableEq, Repr

structure TxIn where
  previousOutput : OutPoint
  scriptSig : Script := []
  sequence : UInt32
  witness : List Bytes := []
  deriving DecidableEq, Repr

structure TxOut where
  value : UInt64
  scriptPubkey : Script
  deriving DecidableEq, Repr

structure Transaction where
  version : UInt32
  lockTime : UInt32
  input : List TxIn
  output : List TxOut
  deriving DecidableEq, Repr

/-- The transaction with every witness emptied. -/
def Transaction.stripWitnesses (tx : Transaction) : Transaction :=
  { tx with input := tx.input.map (fun i => { i with witness := [] }) }

/-- The previous outputs a transaction spends, in input order. -/
def Transaction.previousOutputs (tx : Transaction) : List OutPoint :=
  tx.input.map TxIn.previousOutput

/-- PSBT version 0 holds the transaction without scriptSigs and witnesses. -/
def Transaction.Unsigned (tx : Transaction) : Prop :=
  ∀ i ∈ tx.input, i.scriptSig = [] ∧ i.witness = []

theorem Transaction.stripWitnesses_of_unsigned {tx : Transaction} (h : tx.Unsigned) :
    tx.stripWitnesses = tx := by
  have hmap : tx.input.map (fun i => { i with witness := [] }) = tx.input := by
    conv_rhs => rw [← List.map_id tx.input]
    apply List.map_congr_left
    intro i hi
    have hw := (h i hi).2
    cases i
    simp_all
  simp [stripWitnesses, hmap]

@[simp] theorem Transaction.previousOutputs_stripWitnesses (tx : Transaction) :
    tx.stripWitnesses.previousOutputs = tx.previousOutputs := by
  simp [previousOutputs, stripWitnesses, Function.comp_def]

/-! ## Keys and signatures -/

/-- A secp256k1 point in its compressed serialization. -/
structure SecpKey where
  bytes : Bytes
  size : bytes.length = 33
  deriving DecidableEq

instance : Ord SecpKey := ⟨compareOn SecpKey.bytes⟩

instance : TransOrd SecpKey :=
  inferInstanceAs (TransCmp (compareOn SecpKey.bytes))

instance : LawfulEqOrd SecpKey where
  eq_of_compare {a b} h := by
    have hb : a.bytes = b.bytes := by
      exact LawfulEqOrd.eq_of_compare h
    cases a
    cases b
    simp_all

/-- `bitcoin::PublicKey`. -/
structure PublicKey where
  compressed : Bool
  inner : SecpKey
  deriving DecidableEq

instance : Ord PublicKey := ⟨compareOn fun k => (k.compressed, k.inner)⟩

instance : TransOrd PublicKey :=
  inferInstanceAs (TransCmp (compareOn fun k : PublicKey => (k.compressed, k.inner)))

instance : LawfulEqOrd PublicKey where
  eq_of_compare {a b} h := by
    have hab : (a.compressed, a.inner) = (b.compressed, b.inner) := by
      exact LawfulEqOrd.eq_of_compare h
    cases a
    cases b
    simp_all

inductive EcdsaSighashType where
  | all
  | none
  | single
  | allPlusAnyoneCanPay
  | nonePlusAnyoneCanPay
  | singlePlusAnyoneCanPay
  deriving DecidableEq, Repr

/-- The `u32` a PSBT stores for a sighash type. -/
def EcdsaSighashType.toPsbt : EcdsaSighashType → UInt32
  | .all => 0x01
  | .none => 0x02
  | .single => 0x03
  | .allPlusAnyoneCanPay => 0x81
  | .nonePlusAnyoneCanPay => 0x82
  | .singlePlusAnyoneCanPay => 0x83

/-- `ecdsa::Signature`: a signature in its canonical DER form, and its sighash type. -/
structure Signature where
  signature : Bytes
  sighashType : EcdsaSighashType
  deriving DecidableEq, Repr

/-! ## PSBTs -/

/-- A master fingerprint and a derivation path. -/
structure KeySource where
  fingerprint : UInt32
  path : List UInt32
  deriving DecidableEq, Repr

/-- `bip32::Xpub` in its 78-byte serialization. -/
abbrev Xpub := Bytes

/-- Raw PSBT fields: key and value. -/
abbrev RawFields := List (Bytes × Bytes)

/-- `psbt::Input`. -/
structure PsbtInput where
  nonWitnessUtxo : Option Transaction := none
  witnessUtxo : Option TxOut := none
  partialSigs : Table PublicKey Signature := ∅
  sighashType : Option UInt32 := none
  redeemScript : Option Script := none
  witnessScript : Option Script := none
  bip32Derivation : Table SecpKey KeySource := ∅
  finalScriptSig : Option Script := none
  finalScriptWitness : Option (List Bytes) := none
  other : RawFields := []
  deriving DecidableEq

/-- `psbt::Output`. -/
structure PsbtOutput where
  redeemScript : Option Script := none
  witnessScript : Option Script := none
  bip32Derivation : Table SecpKey KeySource := ∅
  other : RawFields := []
  deriving DecidableEq

/-- `Psbt`. -/
structure Psbt where
  unsignedTx : Transaction
  version : Nat := 0
  xpub : Table Xpub KeySource := ∅
  proprietary : RawFields := []
  unknown : RawFields := []
  inputs : List PsbtInput
  outputs : List PsbtOutput
  deriving DecidableEq

namespace PsbtInput

/-- The input without its partial signatures. -/
def stripSignatures (i : PsbtInput) : PsbtInput := { i with partialSigs := ∅ }

@[simp] theorem stripSignatures_partialSigs (i : PsbtInput) :
    i.stripSignatures.partialSigs = ∅ := rfl

@[simp] theorem stripSignatures_set (i : PsbtInput) (s : Table PublicKey Signature) :
    stripSignatures { i with partialSigs := s } = i.stripSignatures := rfl

theorem stripSignatures_of_empty {i : PsbtInput} (h : i.partialSigs = ∅) :
    i.stripSignatures = i := by
  cases i
  simp_all [stripSignatures]

end PsbtInput

namespace Psbt

/-- The PSBT without the partial signatures of its inputs. -/
def stripSignatures (p : Psbt) : Psbt :=
  { p with inputs := p.inputs.map PsbtInput.stripSignatures }

/-- The PSBT version 0 values the transaction builder makes: an unsigned
    transaction, one map for each input and output, and none of the fields
    kept in `other`, `proprietary` and `unknown`. -/
structure WellFormed (p : Psbt) : Prop where
  unsigned : p.unsignedTx.Unsigned
  version : p.version = 0
  proprietary : p.proprietary = []
  unknown : p.unknown = []
  inputs_length : p.inputs.length = p.unsignedTx.input.length
  outputs_length : p.outputs.length = p.unsignedTx.output.length
  inputs_other : ∀ i ∈ p.inputs, i.other = []
  outputs_other : ∀ o ∈ p.outputs, o.other = []
  funding_inputs : ∀ i ∈ p.inputs, ∀ tx, i.nonWitnessUtxo = some tx → tx.input ≠ []

end Psbt

end Tundra
