/-
  Tundra.Fixture.Codec

  The wire formats of a transaction, with and without witnesses, and of the
  key-value maps of a version 0 PSBT.  `decodeTx_serializeTx` and
  `readPsbt_writePsbt` read back what was written.
-/

import Tundra.Signing.Limits
import Mathlib.Algebra.Order.BigOperators.Group.List

namespace Tundra
namespace Fixture

open Wire Relational Signing

/-! ## Integers and outpoints -/

def encodeU32 (n : UInt32) : Bytes := leBytes 4 n.toNat

def decodeU32 : Decoder UInt32 := decodeVia (fun n => some (UInt32.ofNat n)) (decodeLe 4)

theorem u32_roundTrips : RoundTrips encodeU32 decodeU32 (fun _ => True) :=
  via_roundTrips (decodeLe_roundTrips 4) fun n _ => ⟨n.toNat_lt, by simp⟩

def encodeU64 (n : UInt64) : Bytes := leBytes 8 n.toNat

def decodeU64 : Decoder UInt64 := decodeVia (fun n => some (UInt64.ofNat n)) (decodeLe 8)

theorem u64_roundTrips : RoundTrips encodeU64 decodeU64 (fun _ => True) :=
  via_roundTrips (decodeLe_roundTrips 8) fun n _ => ⟨n.toNat_lt, by simp⟩

/-- A byte string of a known length. -/
def decodeFixed (n : Nat) : Decoder { bytes : Bytes // bytes.length = n } := fun bytes =>
  (takeBytes n bytes).bind (fun r => if h : r.1.length = n then some (⟨r.1, h⟩, r.2) else none)

theorem fixed_roundTrips (n : Nat) :
    RoundTrips (fun b : { bytes : Bytes // bytes.length = n } => b.1) (decodeFixed n)
      (fun _ => True) := by
  intro b _ rest
  have hread : takeBytes n (b.1 ++ rest) = some (b.1, rest) := takeBytes_eq_some.mpr ⟨rfl, b.2⟩
  simp [decodeFixed, hread, b.2]

def encodeOutPoint (op : OutPoint) : Bytes := op.txid.bytes ++ encodeU32 op.vout

def decodeOutPoint : Decoder OutPoint :=
  decodeVia (fun p => some { txid := ⟨p.1.1, p.1.2⟩, vout := p.2 })
    (decodePair (decodeFixed 32) decodeU32)

theorem outPoint_roundTrips : RoundTrips encodeOutPoint decodeOutPoint (fun _ => True) :=
  via_roundTrips
    (g := fun op : OutPoint =>
      ((⟨op.txid.bytes, op.txid.size⟩ : { bytes : Bytes // bytes.length = 32 }), op.vout))
    (pair_roundTrips (fixed_roundTrips 32) u32_roundTrips)
    fun _ _ => ⟨⟨trivial, trivial⟩, rfl⟩

theorem length_encodeOutPoint (op : OutPoint) : (encodeOutPoint op).length = 36 := by
  rw [encodeOutPoint, List.length_append, op.txid.size, encodeU32, leBytes_length]

/-! ## Inputs and outputs -/

/-- An input without its witness. -/
def encodeTxIn (i : TxIn) : Bytes :=
  encodeOutPoint i.previousOutput ++ (varBytes i.scriptSig ++ encodeU32 i.sequence)

def decodeTxIn : Decoder TxIn :=
  decodeVia (fun p => some { previousOutput := p.1, scriptSig := p.2.1, sequence := p.2.2 })
    (decodePair decodeOutPoint (decodePair decodeVarBytes decodeU32))

theorem txIn_roundTrips :
    RoundTrips encodeTxIn decodeTxIn (fun i => i.scriptSig.length < 2 ^ 64 ∧ i.witness = []) :=
  via_roundTrips (g := fun i : TxIn => (i.previousOutput, i.scriptSig, i.sequence))
    (pair_roundTrips outPoint_roundTrips (pair_roundTrips varBytes_roundTrips u32_roundTrips))
    fun i hi => ⟨⟨trivial, hi.1, trivial⟩, by rw [← hi.2]⟩

def encodeTxOut (o : TxOut) : Bytes := encodeU64 o.value ++ varBytes o.scriptPubkey

def decodeTxOut : Decoder TxOut :=
  decodeVia (fun p => some { value := p.1, scriptPubkey := p.2 })
    (decodePair decodeU64 decodeVarBytes)

theorem txOut_roundTrips :
    RoundTrips encodeTxOut decodeTxOut (fun o => o.scriptPubkey.length < 2 ^ 64) :=
  via_roundTrips (g := fun o : TxOut => (o.value, o.scriptPubkey))
    (pair_roundTrips u64_roundTrips varBytes_roundTrips) fun _ ho => ⟨⟨trivial, ho⟩, rfl⟩

/-- A witness stack. -/
def encodeWitness (stack : List Bytes) : Bytes := counted varBytes stack

def decodeWitness : Decoder (List Bytes) := decodeCounted decodeVarBytes

theorem witness_roundTrips : RoundTrips encodeWitness decodeWitness
    (fun stack => stack.length < 2 ^ 64 ∧ ∀ item ∈ stack, item.length < 2 ^ 64) :=
  counted_roundTrips varBytes_roundTrips

/-! ## Transactions -/

/-- The serialization that a transaction id is the hash of. -/
def encodeLegacy (tx : Transaction) : Bytes :=
  encodeU32 tx.version ++ (counted encodeTxIn tx.input ++
    (counted encodeTxOut tx.output ++ encodeU32 tx.lockTime))

def decodeLegacy : Decoder Transaction :=
  decodeVia (fun p => some { version := p.1, input := p.2.1, output := p.2.2.1, lockTime := p.2.2.2 })
    (decodePair decodeU32 (decodePair (decodeCounted decodeTxIn)
      (decodePair (decodeCounted decodeTxOut) decodeU32)))

/-- The lengths in a transaction fit compact sizes. -/
structure Bounded (tx : Transaction) : Prop where
  input : tx.input.length < 2 ^ 64
  scriptSig : ∀ i ∈ tx.input, i.scriptSig.length < 2 ^ 64
  witness : ∀ i ∈ tx.input, i.witness.length < 2 ^ 64 ∧ ∀ w ∈ i.witness, w.length < 2 ^ 64
  output : tx.output.length < 2 ^ 64
  scriptPubkey : ∀ o ∈ tx.output, o.scriptPubkey.length < 2 ^ 64

theorem legacy_roundTrips : RoundTrips encodeLegacy decodeLegacy
    (fun tx => Bounded tx ∧ ∀ i ∈ tx.input, i.witness = []) :=
  via_roundTrips
    (g := fun tx : Transaction => (tx.version, tx.input, tx.output, tx.lockTime))
    (pair_roundTrips u32_roundTrips (pair_roundTrips (counted_roundTrips txIn_roundTrips)
      (pair_roundTrips (counted_roundTrips txOut_roundTrips) u32_roundTrips)))
    fun _ h => ⟨⟨trivial, ⟨h.1.input, fun i hi => ⟨h.1.scriptSig i hi, h.2 i hi⟩⟩,
      ⟨h.1.output, h.1.scriptPubkey⟩, trivial⟩, rfl⟩

/-- The part of a witness serialization after the marker and the flag. -/
def encodeBody (tx : Transaction) : Bytes :=
  counted encodeTxIn tx.input ++ (counted encodeTxOut tx.output ++
    ((tx.input.map TxIn.witness).flatMap encodeWitness ++ encodeU32 tx.lockTime))

/-- There is one witness for each input. -/
def decodeBody (version : UInt32) : Decoder Transaction := fun bytes =>
  (decodeCounted decodeTxIn bytes).bind (fun i =>
    (decodeCounted decodeTxOut i.2).bind (fun o =>
      (decodeMany decodeWitness i.1.length o.2).bind (fun w =>
        (decodeU32 w.2).map (fun l =>
          ({ version
             lockTime := l.1
             input := List.zipWith (fun i w => { i with witness := w }) i.1 w.1
             output := o.1 }, l.2)))))

/-- `consensus::serialize`. -/
def serializeTx (tx : Transaction) : Bytes :=
  if ∀ i ∈ tx.input, i.witness = [] then encodeLegacy tx
  else encodeU32 tx.version ++ (0 :: 1 :: encodeBody tx)

/-- A transaction in either serialization. -/
def decodeTx : Decoder Transaction := fun bytes =>
  match decodeU32 bytes with
  | some (version, 0 :: 1 :: rest) => decodeBody version rest
  | _ => decodeLegacy bytes

/-- Inputs are encoded alike with and without witnesses. -/
theorem counted_encodeTxIn (l : List TxIn) :
    counted encodeTxIn l = counted encodeTxIn (l.map (fun i => { i with witness := [] })) := by
  have hflat : ∀ l : List TxIn, l.flatMap encodeTxIn =
      (l.map (fun i => { i with witness := [] })).flatMap encodeTxIn := by
    intro l
    induction l with
    | nil => rfl
    | cons i l ih =>
        rw [List.flatMap_cons, List.map_cons, List.flatMap_cons, ih]
        rfl
  rw [counted, counted, List.length_map, hflat]

theorem zipWith_witness (l : List TxIn) :
    List.zipWith (fun i w => { i with witness := w })
      (l.map (fun i => { i with witness := [] })) (l.map TxIn.witness) = l := by
  induction l with
  | nil => rfl
  | cons i l ih =>
      rw [List.map_cons, List.map_cons, List.zipWith_cons_cons, ih]

theorem decodeBody_encodeBody {tx : Transaction} (h : Bounded tx) (rest : Bytes) :
    decodeBody tx.version (encodeBody tx ++ rest) = some (tx, rest) := by
  have hi : decodeCounted decodeTxIn (counted encodeTxIn tx.input ++
      (counted encodeTxOut tx.output ++ ((tx.input.map TxIn.witness).flatMap encodeWitness ++
        (encodeU32 tx.lockTime ++ rest)))) = some (tx.input.map (fun i => { i with witness := [] }),
      counted encodeTxOut tx.output ++ ((tx.input.map TxIn.witness).flatMap encodeWitness ++
        (encodeU32 tx.lockTime ++ rest))) := by
    rw [counted_encodeTxIn]
    refine counted_roundTrips txIn_roundTrips _ ⟨by simpa using h.input, ?_⟩ _
    intro i hi
    obtain ⟨j, hj, rfl⟩ := List.mem_map.mp hi
    exact ⟨h.scriptSig j hj, rfl⟩
  have ho := counted_roundTrips txOut_roundTrips tx.output ⟨h.output, h.scriptPubkey⟩
    ((tx.input.map TxIn.witness).flatMap encodeWitness ++ (encodeU32 tx.lockTime ++ rest))
  have hw := decodeMany_append witness_roundTrips (l := tx.input.map TxIn.witness)
    (fun w hw => by
      obtain ⟨i, hi, rfl⟩ := List.mem_map.mp hw
      exact h.witness i hi) (encodeU32 tx.lockTime ++ rest)
  have hl := u32_roundTrips tx.lockTime trivial rest
  rw [List.length_map] at hw
  simp only [decodeBody, encodeBody, List.append_assoc, hi, ho, Option.bind_some, List.length_map,
    hw, hl, Option.map_some, zipWith_witness]

/-- The compact size of a positive number does not start with the marker. -/
theorem compactSize_head {n : Nat} (h : 0 < n) :
    ∃ b bytes, compactSize n = b :: bytes ∧ b ≠ 0 := by
  unfold compactSize
  split_ifs with h₁ h₂ h₃
  · refine ⟨_, _, rfl, fun hb => ?_⟩
    have hzero := congrArg UInt8.toNat hb
    rw [UInt8.toNat_ofNat'] at hzero
    have : (0 : UInt8).toNat = 0 := rfl
    omega
  · exact ⟨_, _, rfl, by decide⟩
  · exact ⟨_, _, rfl, by decide⟩
  · exact ⟨_, _, rfl, by decide⟩

/-- Consensus serialization reads back. -/
theorem decodeTx_serializeTx {tx : Transaction} (hne : tx.input ≠ []) (h : Bounded tx)
    (rest : Bytes) : decodeTx (serializeTx tx ++ rest) = some (tx, rest) := by
  by_cases hw : ∀ i ∈ tx.input, i.witness = []
  · have hlegacy := legacy_roundTrips tx ⟨h, hw⟩ rest
    obtain ⟨b, bytes, hhead, hb⟩ := compactSize_head (List.length_pos_of_ne_nil hne)
    have hversion : decodeU32 (encodeLegacy tx ++ rest) = some (tx.version,
        b :: (bytes ++ tx.input.flatMap encodeTxIn ++
          (counted encodeTxOut tx.output ++ encodeU32 tx.lockTime) ++ rest)) := by
      have hread := u32_roundTrips tx.version trivial
        (b :: (bytes ++ tx.input.flatMap encodeTxIn ++
          (counted encodeTxOut tx.output ++ encodeU32 tx.lockTime) ++ rest))
      rw [← hread, encodeLegacy, counted, hhead]
      simp only [List.append_assoc, List.cons_append]
    rw [serializeTx, if_pos hw, decodeTx, hversion]
    split
    · rename_i heq
      simp only [Option.some.injEq, Prod.mk.injEq, List.cons.injEq] at heq
      exact absurd heq.2.1 hb
    · exact hlegacy
  · have hversion := u32_roundTrips tx.version trivial (0 :: 1 :: (encodeBody tx ++ rest))
    rw [serializeTx, if_neg hw, List.append_assoc, List.cons_append, List.cons_append, decodeTx,
      hversion]
    exact decodeBody_encodeBody h rest

/-! ## Lengths -/

theorem length_mem_counted {α : Type} {e : α → Bytes} {l : List α} {a : α} (ha : a ∈ l) :
    (e a).length ≤ (counted e l).length := by
  have hmem := length_le_flatMap (e := e) ha
  rw [counted, List.length_append]
  omega

theorem length_le_counted {α : Type} {e : α → Bytes} {l : List α}
    (h : ∀ a ∈ l, 0 < (e a).length) : l.length ≤ (counted e l).length := by
  have hflat := length_le_length_flatMap h
  rw [counted, List.length_append]
  omega

theorem varBytes_pos (bytes : Bytes) : 0 < (varBytes bytes).length := by
  have hpos := compactSize_length_pos bytes.length
  rw [length_varBytes]
  omega

theorem length_encodeTxIn (i : TxIn) :
    (encodeTxIn i).length = 40 + (varBytes i.scriptSig).length := by
  rw [encodeTxIn, List.length_append, List.length_append, length_encodeOutPoint, encodeU32,
    leBytes_length]
  omega

theorem length_encodeTxOut (o : TxOut) :
    (encodeTxOut o).length = 8 + (varBytes o.scriptPubkey).length := by
  rw [encodeTxOut, List.length_append, encodeU64, leBytes_length]

/-- What the inputs and outputs take of a serialization. -/
theorem length_parts_le (tx : Transaction) :
    (counted encodeTxIn tx.input).length + (counted encodeTxOut tx.output).length ≤
      (serializeTx tx).length := by
  rw [serializeTx]
  split_ifs
  · simp only [encodeLegacy, List.length_append]
    omega
  · simp only [encodeBody, List.length_append, List.length_cons]
    omega

theorem length_witness_le {tx : Transaction} {i : TxIn} (hi : i ∈ tx.input) (hne : i.witness ≠ []) :
    (encodeWitness i.witness).length ≤ (serializeTx tx).length := by
  have hw : ¬ ∀ i ∈ tx.input, i.witness = [] := fun h => hne (h i hi)
  have hmem := length_le_flatMap (e := encodeWitness) (List.mem_map_of_mem (f := TxIn.witness) hi)
  rw [serializeTx, if_neg hw]
  simp only [encodeBody, List.length_append, List.length_cons]
  omega

/-- A transaction of a bounded length has bounded parts. -/
theorem bounded_of_length {tx : Transaction} {bound : Nat} (h : (serializeTx tx).length ≤ bound)
    (hbound : bound < 2 ^ 64) : Bounded tx := by
  have hparts := length_parts_le tx
  have hpos : ∀ i ∈ tx.input, 0 < (encodeTxIn i).length := fun i _ => by
    rw [length_encodeTxIn]
    omega
  have hpos' : ∀ o ∈ tx.output, 0 < (encodeTxOut o).length := fun o _ => by
    rw [length_encodeTxOut]
    omega
  have hinput := length_le_counted hpos
  have houtput := length_le_counted hpos'
  refine ⟨by omega, ?_, ?_, by omega, ?_⟩
  · intro i hi
    have hmem := length_mem_counted (e := encodeTxIn) hi
    have hscript := length_le_varBytes i.scriptSig
    rw [length_encodeTxIn] at hmem
    omega
  · intro i hi
    by_cases hne : i.witness = []
    · rw [hne]
      exact ⟨by simp, by simp⟩
    · have hlen := length_witness_le hi hne
      have hcount := length_le_counted (e := varBytes) (l := i.witness)
        (fun w _ => varBytes_pos w)
      rw [encodeWitness] at hlen
      refine ⟨by omega, fun w hw => ?_⟩
      have hmem := length_mem_counted (e := varBytes) hw
      have hitem := length_le_varBytes w
      omega
  · intro o ho
    have hmem := length_mem_counted (e := encodeTxOut) ho
    have hscript := length_le_varBytes o.scriptPubkey
    rw [length_encodeTxOut] at hmem
    omega

theorem length_counted_le {α : Type} {e : α → Bytes} {s : α → Nat} {l : List α}
    (h : ∀ a ∈ l, (e a).length ≤ s a) :
    (counted e l).length ≤ 9 + (l.map s).sum := by
  have hflat : (l.flatMap e).length ≤ (l.map s).sum := by
    rw [List.length_flatMap]
    exact List.sum_le_sum h
  have hsize := compactSize_length_le l.length
  rw [counted, List.length_append]
  omega

theorem length_varBytes_le (bytes : Bytes) : (varBytes bytes).length ≤ 9 + bytes.length := by
  have hsize := compactSize_length_le bytes.length
  rw [length_varBytes]
  omega

/-- The length of a serialization in terms of its parts. -/
theorem length_serializeTx_le (tx : Transaction) : (serializeTx tx).length ≤ 64 +
    (tx.input.map (fun i => 64 + i.scriptSig.length +
      (i.witness.map (fun w => 9 + w.length)).sum)).sum +
    (tx.output.map (fun o => 32 + o.scriptPubkey.length)).sum := by
  have hinput := length_counted_le (e := encodeTxIn) (s := fun i => 49 + i.scriptSig.length)
    (l := tx.input) (fun i _ => by
      have hvar := length_varBytes_le i.scriptSig
      rw [length_encodeTxIn]
      omega)
  have houtput := length_counted_le (e := encodeTxOut)
    (s := fun o => 32 + o.scriptPubkey.length) (l := tx.output) (fun o _ => by
      have hvar := length_varBytes_le o.scriptPubkey
      rw [length_encodeTxOut]
      omega)
  have hwitness : ((tx.input.map TxIn.witness).flatMap encodeWitness).length ≤
      (tx.input.map (fun i => 9 + (i.witness.map (fun w => 9 + w.length)).sum)).sum := by
    rw [List.length_flatMap, List.map_map]
    exact List.sum_le_sum fun i _ => length_counted_le fun w _ => length_varBytes_le w
  have hsum : (tx.input.map (fun i => 49 + i.scriptSig.length)).sum +
      (tx.input.map (fun i => 9 + (i.witness.map (fun w => 9 + w.length)).sum)).sum ≤
      (tx.input.map (fun i => 64 + i.scriptSig.length +
        (i.witness.map (fun w => 9 + w.length)).sum)).sum := by
    rw [← List.sum_map_add]
    exact List.sum_le_sum fun i _ => by omega
  have hu32 : ∀ n : UInt32, (encodeU32 n).length = 4 := fun n => leBytes_length 4 _
  rw [serializeTx]
  split_ifs
  · simp only [encodeLegacy, List.length_append, hu32]
    omega
  · simp only [encodeBody, List.length_append, List.length_cons, hu32]
    omega

/-! ## The shape of an unsigned transaction -/

open Checked in
theorem skipInputs_encode {l : List TxIn} (h : ∀ i ∈ l, i.scriptSig = []) (rest : Bytes) :
    skipInputs l.length (l.flatMap encodeTxIn ++ rest) = .ok rest := by
  induction l with
  | nil => rfl
  | cons i l ih =>
      have hi := h i (List.mem_cons_self ..)
      have hop : take (encodeOutPoint i.previousOutput ++ (compactSize 0 ++
          (encodeU32 i.sequence ++ (l.flatMap encodeTxIn ++ rest)))) 36 =
          .ok (encodeOutPoint i.previousOutput, compactSize 0 ++
            (encodeU32 i.sequence ++ (l.flatMap encodeTxIn ++ rest))) := by
        rw [← length_encodeOutPoint i.previousOutput]
        exact take_append _ _
      have hseq : take (encodeU32 i.sequence ++ (l.flatMap encodeTxIn ++ rest)) 4 =
          .ok (encodeU32 i.sequence, l.flatMap encodeTxIn ++ rest) := by
        have hlen : (encodeU32 i.sequence).length = 4 := leBytes_length 4 _
        rw [← hlen]
        exact take_append _ _
      have hbytes : (i :: l).flatMap encodeTxIn ++ rest =
          encodeOutPoint i.previousOutput ++ (compactSize 0 ++
            (encodeU32 i.sequence ++ (l.flatMap encodeTxIn ++ rest))) := by
        simp [encodeTxIn, hi, varBytes, List.append_assoc]
      have hzero : (0 : Nat) < 2 ^ 64 := by omega
      rw [hbytes, List.length_cons, skipInputs]
      simp only [hop, ok_bind, count_append hzero, require_of, hseq]
      exact ih (fun j hj => h j (List.mem_cons_of_mem _ hj))

open Checked in
/-- The shape of a serialized unsigned transaction counts its inputs and outputs. -/
theorem transactionShape_encodeLegacy {tx : Transaction} (htx : tx.Unsigned) (hb : Bounded tx)
    {i o : Nat} (h : transactionShape (encodeLegacy tx) = .ok (i, o)) :
    i = tx.input.length ∧ o = tx.output.length := by
  have hversion : take (encodeLegacy tx) 4 = .ok (encodeU32 tx.version, compactSize tx.input.length ++
      (tx.input.flatMap encodeTxIn ++ (compactSize tx.output.length ++
        (tx.output.flatMap encodeTxOut ++ encodeU32 tx.lockTime)))) := by
    have hlen : (encodeU32 tx.version).length = 4 := leBytes_length 4 _
    have hbytes : encodeLegacy tx = encodeU32 tx.version ++ (compactSize tx.input.length ++
        (tx.input.flatMap encodeTxIn ++ (compactSize tx.output.length ++
          (tx.output.flatMap encodeTxOut ++ encodeU32 tx.lockTime)))) := by
      simp [encodeLegacy, counted, List.append_assoc]
    rw [hbytes, ← hlen]
    exact take_append _ _
  simp only [transactionShape, hversion, ok_bind, count_append hb.input, bind_eq_ok,
    require_eq_ok, exists_unit, skipInputs_encode (fun j hj => (htx j hj).1), Except.ok.injEq,
    count_append hb.output, Prod.mk.injEq] at h
  obtain ⟨_, _, _, _, _, _, _, rfl, rfl⟩ := h
  exact ⟨rfl, rfl⟩

end Fixture
end Tundra
