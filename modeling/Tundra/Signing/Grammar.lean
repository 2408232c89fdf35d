/-
  Tundra.Signing.Grammar

  The grammar of the bounded scan that comes before the typed PSBT parser.  The
  scan accepts a byte string exactly when it is a global map with one unsigned
  transaction in bounds, and then one map for each of the transaction's inputs
  and outputs (`Grammar`).  A parser that reads the same transaction there then
  reads as many inputs and outputs.
-/

import Tundra.Lib.Canonical
import Tundra.Signing.Response
import Tundra.Fixture.Env

namespace Tundra
namespace Signing

open Checked Wire Fixture

/-! ## The grammar -/

/-- The bounds on an unsigned transaction. -/
structure Bounds (tx : Transaction) : Prop where
  inputs : 1 ≤ tx.input.length ∧ tx.input.length ≤ maxInputs
  unsigned : ∀ i ∈ tx.input, i.scriptSig = [] ∧ i.witness = []
  outputs : 1 ≤ tx.output.length ∧ tx.output.length ≤ maxOutputs
  scripts : ∀ o ∈ tx.output, o.scriptPubkey.length ≤ 10000

/-- A PSBT of a global map, which holds one unsigned transaction, and one map
    for each input and output. -/
structure Grammar (bytes : Bytes) (first : RawFields) (maps : List RawFields) (tx : Transaction) :
    Prop where
  bytes_eq : bytes = psbtMagic ++ (encodeMap first ++ maps.flatMap encodeMap)
  size : bytes.length ≤ maxPsbtBytes
  keys : ∀ m ∈ first :: maps, ∀ f ∈ m, f.1 ≠ []
  limits : ∀ m ∈ first :: maps, WithinFieldLimits m
  transaction : first.filter (fun f => f.1 = [0]) = [([0], encodeLegacy tx)]
  bounds : Bounds tx
  count : maps.length = tx.input.length + tx.output.length

/-! ## The transaction -/

theorem take_eq_ok {n : Nat} {bytes a rest : Bytes} :
    take bytes n = .ok (a, rest) ↔ bytes = a ++ rest ∧ a.length = n := by
  rw [take, okOr_eq_ok, takeBytes_eq_some]

theorem count_eq_ok {n : Nat} {bytes rest : Bytes} (h : count bytes = .ok (n, rest)) :
    n < 2 ^ 64 ∧ bytes = compactSize n ++ rest :=
  compactSize_canonical bytes n rest (okOr_eq_ok.mp h)

theorem exists_encodeU32 {bytes : Bytes} (h : bytes.length = 4) : ∃ n, bytes = encodeU32 n := by
  have hlt := leValue_lt bytes
  rw [h] at hlt
  refine ⟨UInt32.ofNat (leValue bytes), ?_⟩
  rw [encodeU32, UInt32.toNat_ofNat_of_lt' hlt, ← h, leBytes_leValue]

theorem exists_encodeU64 {bytes : Bytes} (h : bytes.length = 8) : ∃ n, bytes = encodeU64 n := by
  have hlt := leValue_lt bytes
  rw [h] at hlt
  refine ⟨UInt64.ofNat (leValue bytes), ?_⟩
  rw [encodeU64, UInt64.toNat_ofNat_of_lt' hlt, ← h, leBytes_leValue]

theorem exists_encodeOutPoint {bytes : Bytes} (h : bytes.length = 36) :
    ∃ op, bytes = encodeOutPoint op := by
  have hid : (bytes.take 32).length = 32 := by
    rw [List.length_take]
    omega
  obtain ⟨vout, hvout⟩ := exists_encodeU32 (show (bytes.drop 32).length = 4 by
    rw [List.length_drop]
    omega)
  exact ⟨⟨⟨bytes.take 32, hid⟩, vout⟩, by rw [encodeOutPoint, ← hvout, List.take_append_drop]⟩

/-- Skipped inputs are inputs without a signature. -/
theorem skipInputs_eq_ok {n : Nat} {bytes rest : Bytes} (h : skipInputs n bytes = .ok rest) :
    ∃ inputs : List TxIn, inputs.length = n ∧ (∀ i ∈ inputs, i.scriptSig = [] ∧ i.witness = []) ∧
      bytes = inputs.flatMap encodeTxIn ++ rest := by
  induction n generalizing bytes with
  | zero =>
      cases h
      exact ⟨[], rfl, fun _ h => (by cases h), rfl⟩
  | succ n ih =>
      simp only [skipInputs, bind_eq_ok, require_eq_ok, exists_unit, Prod.exists] at h
      obtain ⟨outpoint, bytes₁, hout, scriptLen, bytes₂, hscript, rfl, sequence, bytes₃, hseq, h⟩ := h
      obtain ⟨rfl, hlen⟩ := take_eq_ok.mp hout
      obtain ⟨-, rfl⟩ := count_eq_ok hscript
      obtain ⟨rfl, hlen'⟩ := take_eq_ok.mp hseq
      obtain ⟨op, rfl⟩ := exists_encodeOutPoint hlen
      obtain ⟨seq, rfl⟩ := exists_encodeU32 hlen'
      obtain ⟨inputs, rfl, hunsigned, rfl⟩ := ih h
      refine ⟨{ previousOutput := op, sequence := seq } :: inputs, rfl,
        List.forall_mem_cons.mpr ⟨⟨rfl, rfl⟩, hunsigned⟩, ?_⟩
      rw [List.flatMap_cons, encodeTxIn]
      simp only [varBytes, List.append_assoc, List.length_nil, List.nil_append]

theorem skipInputs_append {inputs : List TxIn} (h : ∀ i ∈ inputs, i.scriptSig = [] ∧ i.witness = [])
    (rest : Bytes) : skipInputs inputs.length (inputs.flatMap encodeTxIn ++ rest) = .ok rest := by
  induction inputs with
  | nil => rfl
  | cons i inputs ih =>
      obtain ⟨hi, hrest⟩ := List.forall_mem_cons.mp h
      have hout : take (encodeOutPoint i.previousOutput ++ ([0] ++ (encodeU32 i.sequence ++
          (inputs.flatMap encodeTxIn ++ rest)))) 36 = .ok (encodeOutPoint i.previousOutput, _) :=
        take_eq_ok.mpr ⟨rfl, length_encodeOutPoint _⟩
      have hbytes : (i :: inputs).flatMap encodeTxIn ++ rest = encodeOutPoint i.previousOutput ++
          ([0] ++ (encodeU32 i.sequence ++ (inputs.flatMap encodeTxIn ++ rest))) := by
        rw [List.flatMap_cons, encodeTxIn, hi.1]
        simp only [varBytes, List.append_assoc, List.length_nil, compactSize_zero, List.nil_append]
      rw [hbytes, List.length_cons, skipInputs, hout, ok_bind]
      simp only [show count ([0] ++ (encodeU32 i.sequence ++ (inputs.flatMap encodeTxIn ++ rest))) =
        .ok (0, _) from rfl, ok_bind, require_of]
      exact ih hrest

/-- Skipped outputs are outputs with short scripts. -/
theorem skipOutputs_eq_ok {n : Nat} {bytes rest : Bytes} (h : skipOutputs n bytes = .ok rest) :
    ∃ outputs : List TxOut, outputs.length = n ∧ (∀ o ∈ outputs, o.scriptPubkey.length ≤ 10000) ∧
      bytes = outputs.flatMap encodeTxOut ++ rest := by
  induction n generalizing bytes with
  | zero =>
      cases h
      exact ⟨[], rfl, fun _ h => (by cases h), rfl⟩
  | succ n ih =>
      simp only [skipOutputs, bind_eq_ok, require_eq_ok, exists_unit, Prod.exists] at h
      obtain ⟨value, bytes₁, hvalue, size, bytes₂, hsize, hle, script, bytes₃, hscript, h⟩ := h
      obtain ⟨rfl, hlen⟩ := take_eq_ok.mp hvalue
      obtain ⟨-, rfl⟩ := count_eq_ok hsize
      obtain ⟨rfl, rfl⟩ := take_eq_ok.mp hscript
      obtain ⟨amount, rfl⟩ := exists_encodeU64 hlen
      obtain ⟨outputs, rfl, hscripts, rfl⟩ := ih h
      refine ⟨{ value := amount, scriptPubkey := script } :: outputs, rfl,
        List.forall_mem_cons.mpr ⟨hle, hscripts⟩, ?_⟩
      rw [List.flatMap_cons, encodeTxOut]
      simp only [varBytes, List.append_assoc]

theorem skipOutputs_append {outputs : List TxOut}
    (h : ∀ o ∈ outputs, o.scriptPubkey.length ≤ 10000) (rest : Bytes) :
    skipOutputs outputs.length (outputs.flatMap encodeTxOut ++ rest) = .ok rest := by
  induction outputs with
  | nil => rfl
  | cons o outputs ih =>
      obtain ⟨ho, hrest⟩ := List.forall_mem_cons.mp h
      have hvalue : take (encodeU64 o.value ++ (compactSize o.scriptPubkey.length ++
          (o.scriptPubkey ++ (outputs.flatMap encodeTxOut ++ rest)))) 8 =
            .ok (encodeU64 o.value, _) := take_eq_ok.mpr ⟨rfl, leBytes_length 8 _⟩
      have hsize := count_append (n := o.scriptPubkey.length) (by omega)
        (o.scriptPubkey ++ (outputs.flatMap encodeTxOut ++ rest))
      have hbytes : (o :: outputs).flatMap encodeTxOut ++ rest = encodeU64 o.value ++
          (compactSize o.scriptPubkey.length ++ (o.scriptPubkey ++
            (outputs.flatMap encodeTxOut ++ rest))) := by
        rw [List.flatMap_cons, encodeTxOut]
        simp only [varBytes, List.append_assoc]
      rw [hbytes, List.length_cons, skipOutputs, hvalue, ok_bind]
      simp only [hsize, ok_bind, require_of ho, take_append]
      exact ih hrest

theorem transactionShape_iff {value : Bytes} {i o : Nat} :
    transactionShape value = .ok (i, o) ↔ ∃ tx : Transaction, Bounds tx ∧
      value = encodeLegacy tx ∧ tx.input.length = i ∧ tx.output.length = o := by
  constructor
  · intro h
    simp only [transactionShape, bind_eq_ok, require_eq_ok, exists_unit, Prod.exists,
      Except.ok.injEq, Prod.mk.injEq] at h
    obtain ⟨version, bytes₁, hversion, inputs, bytes₂, hinputs, hin, bytes₃, hskip, outputs, bytes₄,
      houtputs, hout, bytes₅, hskip', lockTime, bytes₆, hlock, rfl, rfl, rfl⟩ := h
    obtain ⟨rfl, hlen⟩ := take_eq_ok.mp hversion
    obtain ⟨-, rfl⟩ := count_eq_ok hinputs
    obtain ⟨ins, rfl, hunsigned, rfl⟩ := skipInputs_eq_ok hskip
    obtain ⟨-, rfl⟩ := count_eq_ok houtputs
    obtain ⟨outs, rfl, hscripts, rfl⟩ := skipOutputs_eq_ok hskip'
    obtain ⟨rfl, hlen'⟩ := take_eq_ok.mp hlock
    obtain ⟨v, rfl⟩ := exists_encodeU32 hlen
    obtain ⟨l, rfl⟩ := exists_encodeU32 hlen'
    refine ⟨{ version := v, lockTime := l, input := ins, output := outs },
      ⟨hin, hunsigned, hout, hscripts⟩, ?_, rfl, rfl⟩
    simp only [encodeLegacy, counted, List.append_assoc, List.append_nil]
  · rintro ⟨tx, hbounds, rfl, rfl, rfl⟩
    have hin := hbounds.inputs
    have hout := hbounds.outputs
    simp only [maxInputs, maxOutputs] at hin hout
    have hversion : ∀ rest, take (encodeU32 tx.version ++ rest) 4 = .ok (encodeU32 tx.version, rest) :=
      fun rest => take_eq_ok.mpr ⟨rfl, leBytes_length 4 _⟩
    have hlock : take (encodeU32 tx.lockTime) 4 = .ok (encodeU32 tx.lockTime, []) :=
      take_eq_ok.mpr ⟨(List.append_nil _).symm, leBytes_length 4 _⟩
    have hinputs := fun rest => count_append (n := tx.input.length) (by omega) rest
    have houtputs := fun rest => count_append (n := tx.output.length) (by omega) rest
    simp only [transactionShape, encodeLegacy, counted, List.append_assoc, hversion, ok_bind,
      hinputs, require_of hbounds.inputs, skipInputs_append hbounds.unsigned, houtputs,
      require_of hbounds.outputs, skipOutputs_append hbounds.scripts, hlock, require_of]

/-! ## The maps -/

/-- What was scanned as the fields of a map is a map. -/
theorem scanFields_canonical {first : Bool} {allow : Nat} {shape s : Shape} {bytes rest : Bytes}
    (h : scanFields first allow shape bytes = .ok (s, rest)) :
    ∃ fields, Encodable fields ∧ bytes = encodeMap fields ++ rest := by
  induction allow generalizing shape bytes with
  | zero =>
      simp only [scanFields, bind_eq_ok, require_eq_ok, exists_unit, Prod.exists] at h
      obtain ⟨keyLen, rest', hcount, rfl, h⟩ := h
      cases h
      obtain ⟨-, rfl⟩ := count_eq_ok hcount
      exact ⟨[], fun _ h => (by cases h), rfl⟩
  | succ allow ih =>
      simp only [scanFields, bind_eq_ok, Prod.exists] at h
      obtain ⟨keyLen, bytes₁, hcount, h⟩ := h
      obtain ⟨hklen, rfl⟩ := count_eq_ok hcount
      by_cases hzero : keyLen = 0
      · rw [if_pos hzero] at h
        cases h
        rw [hzero]
        exact ⟨[], fun _ h => (by cases h), rfl⟩
      · simp only [if_neg hzero, bind_eq_ok, require_eq_ok, exists_unit, Prod.exists] at h
        obtain ⟨-, key, bytes₂, hkey, valueLen, bytes₃, hcount', value, bytes₄, hvalue, h⟩ := h
        obtain ⟨rfl, rfl⟩ := take_eq_ok.mp hkey
        obtain ⟨hvlen, rfl⟩ := count_eq_ok hcount'
        obtain ⟨rfl, rfl⟩ := take_eq_ok.mp hvalue
        -- The rest is scanned whether or not the field was the transaction.
        have hrest : ∃ shape', scanFields first allow shape' bytes₄ = .ok (s, rest) := by
          split_ifs at h
          · simp only [bind_eq_ok, require_eq_ok, exists_unit] at h
            obtain ⟨-, found, -, h⟩ := h
            exact ⟨_, h⟩
          · exact ⟨_, h⟩
        obtain ⟨shape', hrest⟩ := hrest
        obtain ⟨fields, hfields, rfl⟩ := ih hrest
        refine ⟨(key, value) :: fields, List.forall_mem_cons.mpr ⟨⟨?_, hklen, hvlen⟩, hfields⟩, ?_⟩
        · exact fun hnil => hzero (congrArg List.length hnil)
        · simp only [encodeMap_cons, encodeField, varBytes, List.append_assoc]

theorem scanMaps_canonical {n : Nat} {bytes : Bytes} (h : scanMaps n bytes = .ok ()) :
    ∃ maps : List RawFields, (∀ m ∈ maps, Encodable m) ∧ bytes = maps.flatMap encodeMap := by
  induction n generalizing bytes with
  | zero =>
      cases bytes with
      | nil => exact ⟨[], fun _ h => (by cases h), rfl⟩
      | cons b bytes => cases h
  | succ n ih =>
      cases bytes with
      | nil => exact ⟨[], fun _ h => (by cases h), rfl⟩
      | cons b bytes =>
          simp only [scanMaps, bind_eq_ok, Prod.exists] at h
          obtain ⟨s, rest, hfields, hmaps⟩ := h
          obtain ⟨fields, hencodable, hbytes⟩ := scanFields_canonical hfields
          obtain ⟨maps, hall, rfl⟩ := ih hmaps
          exact ⟨fields :: maps, List.forall_mem_cons.mpr ⟨hencodable, hall⟩, hbytes⟩

/-- Once the transaction has been found no other may follow. -/
theorem fieldsShape_found {allow : Nat} {found : Nat × Nat} {s : Shape} {fields : RawFields} :
    fieldsShape true allow (some found) fields = .ok s ↔
      s = some found ∧ (fields.length ≤ allow ∧ ∀ f ∈ fields, f.1.length ≤ 256) ∧
        fields.filter (fun f => f.1 = [0]) = [] := by
  induction fields generalizing allow with
  | nil => simp [fieldsShape, eq_comm]
  | cons field fields ih =>
      obtain ⟨key, value⟩ := field
      cases allow with
      | zero => simp [fieldsShape]
      | succ allow =>
          by_cases hzero : key = [0]
          · simp [fieldsShape, hzero, require]
          · simp only [fieldsShape, hzero, decide_false, Bool.and_false, Bool.false_eq_true, if_false,
              bind_eq_ok, require_eq_ok, exists_unit, ih, List.length_cons,
              Nat.add_le_add_iff_right, List.forall_mem_cons, List.filter_cons]
            tauto

/-- The first map holds the transaction once. -/
theorem fieldsShape_first {allow i o : Nat} {fields : RawFields} :
    fieldsShape true allow none fields = .ok (some (i, o)) ↔
      (fields.length ≤ allow ∧ ∀ f ∈ fields, f.1.length ≤ 256) ∧
        ∃ value, fields.filter (fun f => f.1 = [0]) = [([0], value)] ∧
          transactionShape value = .ok (i, o) := by
  induction fields generalizing allow with
  | nil => simp [fieldsShape]
  | cons field fields ih =>
      obtain ⟨key, value⟩ := field
      cases allow with
      | zero => simp [fieldsShape]
      | succ allow =>
          by_cases hzero : key = [0]
          · subst hzero
            simp only [fieldsShape, decide_true, Bool.and_true, if_true, bind_eq_ok, require_eq_ok,
              exists_unit, fieldsShape_found, List.length_cons, Nat.add_le_add_iff_right,
              List.forall_mem_cons, List.filter_cons, true_and, Option.some.injEq,
              List.cons.injEq, Prod.mk.injEq]
            constructor
            · rintro ⟨hkey, found, hfound, rfl, hlimits, hnone⟩
              exact ⟨⟨hlimits.1, hkey, hlimits.2⟩, value, ⟨rfl, hnone⟩, hfound⟩
            · rintro ⟨⟨hlength, hkey, hkeys⟩, value', ⟨rfl, hnone⟩, hfound⟩
              exact ⟨hkey, (i, o), hfound, rfl, ⟨hlength, hkeys⟩, hnone⟩
          · simp only [fieldsShape, hzero, decide_false, Bool.and_false, Bool.false_eq_true, if_false,
              bind_eq_ok, require_eq_ok, exists_unit, ih, List.length_cons,
              Nat.add_le_add_iff_right, List.forall_mem_cons, List.filter_cons]
            tauto

/-! ## The whole scan -/

theorem Grammar.encodable {bytes : Bytes} {first : RawFields} {maps : List RawFields}
    {tx : Transaction} (h : Grammar bytes first maps tx) :
    Encodable first ∧ ∀ m ∈ maps, Encodable m := by
  have hbound : maxPsbtBytes < 2 ^ 64 := by decide
  have hsize := h.size
  rw [h.bytes_eq, List.length_append, List.length_append] at hsize
  refine ⟨encodable_of_length (h.keys first (List.mem_cons_self ..))
    (show _ ≤ maxPsbtBytes by omega) hbound, fun m hm => ?_⟩
  have hle := length_le_flatMap (e := encodeMap) hm
  exact encodable_of_length (h.keys m (List.mem_cons_of_mem _ hm))
    (show _ ≤ maxPsbtBytes by omega) hbound

theorem prescan_grammar {bytes : Bytes} :
    prescan bytes = .ok () ↔ ∃ first maps tx, Grammar bytes first maps tx := by
  constructor
  · intro h
    -- First the maps the bytes are made of, then what the scan checks of them.
    have hparts := h
    simp only [prescan, bind_eq_ok, require_eq_ok, okOr_eq_ok, exists_unit, Prod.exists] at hparts
    obtain ⟨⟨hsize, tail, hmagic⟩, shape, rest, hfields, inputs, outputs, -, hmaps⟩ := hparts
    obtain ⟨first, hfirst, hbody⟩ := scanFields_canonical hfields
    obtain ⟨maps, hall, rfl⟩ := scanMaps_canonical hmaps
    have hdrop : bytes.drop 5 = tail := by
      rw [← hmagic]
      rfl
    rw [hdrop] at hbody
    have hbytes : bytes = psbtMagic ++ (encodeMap first ++ maps.flatMap encodeMap) := by
      rw [← hmagic, hbody]
    rw [hbytes, prescan_encoding hfirst hall] at h
    obtain ⟨-, i, o, hshape, hcount, hlimits⟩ := h
    obtain ⟨hfirstLimits, value, htransaction, hvalue⟩ := fieldsShape_first.mp hshape
    obtain ⟨tx, hbounds, rfl, rfl, rfl⟩ := transactionShape_iff.mp hvalue
    refine ⟨first, maps, tx, hbytes, hsize, ?_, List.forall_mem_cons.mpr ⟨hfirstLimits, hlimits⟩,
      htransaction, hbounds, hcount⟩
    exact List.forall_mem_cons.mpr
      ⟨fun f hf => (hfirst f hf).1, fun m hm f hf => (hall m hm f hf).1⟩
  · rintro ⟨first, maps, tx, h⟩
    obtain ⟨hfirst, hmaps⟩ := h.encodable
    have hsize := h.size
    obtain ⟨hfirstLimits, hlimits⟩ := List.forall_mem_cons.mp h.limits
    rw [h.bytes_eq] at hsize ⊢
    rw [prescan_encoding hfirst hmaps]
    refine ⟨hsize, tx.input.length, tx.output.length, ?_, h.count, hlimits⟩
    exact fieldsShape_first.mpr ⟨hfirstLimits, encodeLegacy tx, h.transaction,
      transactionShape_iff.mpr ⟨tx, h.bounds, rfl, rfl, rfl⟩⟩

/-- A transaction in bounds has lengths that compact sizes hold. -/
theorem Bounds.bounded {tx : Transaction} (h : Bounds tx) : Bounded tx := by
  have hin := h.inputs.2
  have hout := h.outputs.2
  simp only [maxInputs, maxOutputs] at hin hout
  refine ⟨by omega, fun i hi => ?_, fun i hi => ?_, by omega, fun o ho => ?_⟩
  · rw [(h.unsigned i hi).1]
    decide
  · rw [(h.unsigned i hi).2]
    exact ⟨by decide, fun _ h => (by cases h)⟩
  · have hscript := h.scripts o ho
    omega

section
variable {State Wallet Scan : Type} {env : Env State Wallet Scan}

/-- The typed parser reads the transaction of its global map from the value of
    the unsigned transaction's field. -/
def ReadsTransaction (env : Env State Wallet Scan) : Prop :=
  ∀ bytes p rest, env.deserializePsbt bytes = some (p, rest) →
    ∃ fields later value, Encodable fields ∧
      bytes = psbtMagic ++ (encodeMap fields ++ later) ∧ ([0], value) ∈ fields ∧
      decodeAll decodeLegacy value = some p.unsignedTx

theorem Grammar.unsignedTx (hreads : ReadsTransaction env) {bytes rest : Bytes} {p : Psbt}
    {first : RawFields} {maps : List RawFields} {tx : Transaction}
    (h : Grammar bytes first maps tx) (hp : env.deserializePsbt bytes = some (p, rest)) :
    p.unsignedTx = tx := by
  obtain ⟨fields, later, value, hfields, hbytes, hmem, hvalue⟩ := hreads bytes p rest hp
  -- Both readers see the same first map.
  have hfirst := h.encodable.1
  have hbody : encodeMap first ++ maps.flatMap encodeMap = encodeMap fields ++ later := by
    have heq := h.bytes_eq.symm.trans hbytes
    exact List.append_cancel_left heq
  have hsame : fields = first := by
    have hread := decodeFields_encodeMap hfirst
      (Nat.lt_succ_of_le (Nat.le_max_left first.length fields.length)) (maps.flatMap encodeMap)
    have hread' := decodeFields_encodeMap hfields
      (Nat.lt_succ_of_le (Nat.le_max_right first.length fields.length)) later
    rw [hbody, hread'] at hread
    exact congrArg Prod.fst (Option.some.inj hread)
  have honly : (([0], value) : Bytes × Bytes) ∈ first.filter (fun f => f.1 = [0]) :=
    List.mem_filter.mpr ⟨hsame ▸ hmem, by simp⟩
  rw [h.transaction, List.mem_singleton, Prod.mk.injEq] at honly
  have hread := decodeAll_encode legacy_roundTrips
    ⟨h.bounds.bounded, fun i hi => (h.bounds.unsigned i hi).2⟩
  rw [honly.2, hread] at hvalue
  exact (Option.some.inj hvalue).symm

/-- The bounded scan accepts exactly its grammar, and the typed parser then sees
    as many inputs and outputs as the scan did. -/
theorem prescan_exact (hreads : ReadsTransaction env) :
    (∀ bytes n a rest, take bytes n = .ok (a, rest) → n ≤ bytes.length ∧ rest = bytes.drop n) ∧
    (∀ bytes, prescan bytes = .ok () ↔ ∃ first maps tx, Grammar bytes first maps tx) ∧
    ∀ bytes p rest, prescan bytes = .ok () → env.deserializePsbt bytes = some (p, rest) →
      ∃ later, scanFields true 64 none (bytes.drop 5) =
        .ok (some (p.inputs.length, p.outputs.length), later) := by
  refine ⟨fun bytes n a rest h => ?_, fun bytes => prescan_grammar, fun bytes p rest h hp => ?_⟩
  · obtain ⟨rfl, rfl⟩ := take_eq_ok.mp h
    exact ⟨by rw [List.length_append]; omega, List.drop_left.symm⟩
  · obtain ⟨first, maps, tx, hgrammar⟩ := prescan_grammar.mp h
    obtain ⟨hinputs, houtputs⟩ := env.deserializePsbt_lengths bytes p rest hp
    obtain ⟨hfirstLimits, -⟩ := List.forall_mem_cons.mp hgrammar.limits
    have hshape : fieldsShape true 64 none first =
        .ok (some (p.inputs.length, p.outputs.length)) := by
      rw [hinputs, houtputs, hgrammar.unsignedTx hreads hp]
      exact fieldsShape_first.mpr ⟨hfirstLimits, encodeLegacy tx, hgrammar.transaction,
        transactionShape_iff.mpr ⟨tx, hgrammar.bounds, rfl, rfl, rfl⟩⟩
    have hdrop : bytes.drop 5 = encodeMap first ++ maps.flatMap encodeMap := by
      rw [hgrammar.bytes_eq]
      rfl
    refine ⟨maps.flatMap encodeMap, ?_⟩
    rw [hdrop, scanFields_encodeMap true hgrammar.encodable.1, hshape]
    rfl

end

/-! ## A transaction of one input and one output -/

/-- A field of the global map sets the transaction only when it is the
    transaction's. -/
theorem addGlobalField_unsignedTx {g g' : GlobalMap} {f : Bytes × Bytes} {tx : Transaction}
    (h : addGlobalField g f = some g') (htx : g'.unsignedTx = some tx) :
    g.unsignedTx = some tx ∨ f.1 = [0] ∧ decodeAll decodeLegacy f.2 = some tx := by
  obtain ⟨key, value⟩ := f
  rw [addGlobalField] at h
  cases key with
  | nil => cases h
  | cons keyType key =>
      simp only at h
      split_ifs at h with hzero hxpub hversion hproprietary
      · obtain ⟨rfl, rfl⟩ := hzero
        obtain ⟨tx', hread, rfl⟩ := Option.map_eq_some_iff.mp h
        exact .inr ⟨rfl, hread.trans htx⟩
      · obtain ⟨source, -, rfl⟩ := Option.map_eq_some_iff.mp h
        exact .inl htx
      · obtain ⟨n, -, rfl⟩ := Option.map_eq_some_iff.mp h
        exact .inl htx
      · cases h
        exact .inl htx
      · cases h
        exact .inl htx

theorem foldlM_unsignedTx {fields : RawFields} {g g' : GlobalMap} {tx : Transaction}
    (h : fields.foldlM addGlobalField g = some g') (htx : g'.unsignedTx = some tx) :
    g.unsignedTx = some tx ∨
      ∃ value, ([0], value) ∈ fields ∧ decodeAll decodeLegacy value = some tx := by
  induction fields generalizing g with
  | nil =>
      cases h
      exact .inl htx
  | cons f fields ih =>
      simp only [List.foldlM_cons, Option.bind_eq_bind, Option.bind_eq_some_iff] at h
      obtain ⟨g₁, hf, hrest⟩ := h
      rcases ih hrest with hg | ⟨value, hmem, hvalue⟩
      · rcases addGlobalField_unsignedTx hf hg with hg | ⟨hkey, hvalue⟩
        · exact .inl hg
        · refine .inr ⟨f.2, ?_, hvalue⟩
          rw [← hkey]
          exact List.mem_cons_self ..
      · exact .inr ⟨value, List.mem_cons_of_mem _ hmem, hvalue⟩

theorem readsTransaction_readPsbt : ReadsTransaction Fixture.env := by
  intro bytes p rest h
  have hread : readPsbt bytes = some (p, rest) := h
  rw [readPsbt] at hread
  split_ifs at hread with hmagic
  obtain ⟨tail, htail⟩ := List.isPrefixOf_iff_prefix.mp hmagic
  have hdrop : bytes.drop 5 = tail := by
    rw [← htail]
    rfl
  simp only [readMap, Option.bind_eq_some_iff, Option.map_eq_some_iff, Prod.mk.injEq,
    Prod.exists] at hread
  obtain ⟨g, later, ⟨fields, later', hfields, g', hfold, rfl, rfl⟩, tx, htx, -, -, -, -, -, -,
    rfl, -⟩ := hread
  obtain ⟨hencodable, hbytes⟩ := decodeFields_canonical _ _ _ _ hfields
  rcases foldlM_unsignedTx hfold htx with hnone | ⟨value, hmem, hvalue⟩
  · cases hnone
  · exact ⟨fields, later', value, hencodable, by rw [← htail, ← hdrop, hbytes], hmem, hvalue⟩

/-- The PSBT of the funding transaction, with empty maps. -/
def barePsbt : Bytes :=
  psbtMagic ++ (encodeMap [([0], encodeLegacy (fundingTx []))] ++ ([[], []] : List RawFields).flatMap encodeMap)

theorem prescan_exact_bare :
    ∃ p, readPsbt barePsbt = some (p, []) ∧ ∃ later,
      scanFields true 64 none (barePsbt.drop 5) =
        .ok (some (p.inputs.length, p.outputs.length), later) := by
  have hscan : prescan barePsbt = .ok () := by decide
  let p : Psbt := { unsignedTx := fundingTx [], inputs := [{}], outputs := [{}] }
  have hread : readPsbt barePsbt = some (p, []) := by decide
  exact ⟨p, hread, (prescan_exact readsTransaction_readPsbt).2.2 barePsbt p [] hscan hread⟩

end Signing
end Tundra
