/-
  Tundra.Fixture.Maps

  The key-value maps of a version 0 PSBT: one global map, then one map for
  each input and each output.  Every field is written under its own key, and a
  map is read field by field, so reading is a fold over the fields
  (`readPsbt_writePsbt`).

  A field the record has no place for is kept as it is in `other`.
-/

import Tundra.Signing.Response
import Tundra.Fixture.Codec

namespace Tundra
namespace Fixture

open Wire Relational Signing

/-! ## Values -/

def encodeKeySource (k : KeySource) : Bytes := encodeU32 k.fingerprint ++ k.path.flatMap encodeU32

def readKeySource (bytes : Bytes) : Option KeySource := do
  let (fingerprint, rest) ← decodeU32 bytes
  let path ← decodeAll (decodeMany decodeU32 (rest.length / 4)) rest
  some { fingerprint, path }

theorem readKeySource_encode (k : KeySource) : readKeySource (encodeKeySource k) = some k := by
  have hlen : ∀ l : List UInt32, (l.flatMap encodeU32).length = 4 * l.length := by
    intro l
    induction l with
    | nil => rfl
    | cons n l ih =>
        have hn : (encodeU32 n).length = 4 := leBytes_length 4 _
        rw [List.flatMap_cons, List.length_append, ih, hn, List.length_cons]
        omega
  have hdiv : (k.path.flatMap encodeU32).length / 4 = k.path.length := by
    have := hlen k.path
    omega
  have hpath : decodeAll (decodeMany decodeU32 k.path.length) (k.path.flatMap encodeU32) =
      some k.path := by
    have hread := decodeMany_append u32_roundTrips (l := k.path) (fun _ _ => trivial) []
    rw [List.append_nil] at hread
    rw [decodeAll, hread]
  have hhead := u32_roundTrips k.fingerprint trivial (k.path.flatMap encodeU32)
  simp only [readKeySource, encodeKeySource, hhead, Option.bind_eq_bind, Option.bind_some, hdiv,
    hpath]

/-- `PublicKey::to_bytes`.  The model keeps no y coordinate; an uncompressed
    key has its parity byte in that place. -/
def publicKeyBytes (k : PublicKey) : Bytes :=
  if k.compressed then k.inner.bytes
  else 0x04 :: (k.inner.bytes.drop 1 ++ (List.replicate 31 0 ++ k.inner.bytes.take 1))

/-- Key bytes by their length, without the leading 0x04 when uncompressed. -/
def secpKey (compressed : Bool) (bytes : Bytes) : Option PublicKey :=
  if h : bytes.length = 33 then some { compressed, inner := ⟨bytes, h⟩ } else none

def readPublicKey (bytes : Bytes) : Option PublicKey :=
  if bytes.length = 65 then secpKey false (bytes.drop 64 ++ (bytes.drop 1).take 32)
  else secpKey true bytes

theorem publicKeyBytes_length (k : PublicKey) : (publicKeyBytes k).length ≤ 65 := by
  have hsize := k.inner.size
  rw [publicKeyBytes]
  split_ifs
  · omega
  · simp only [List.length_cons, List.length_append, List.length_drop, List.length_replicate,
      List.length_take]
    omega

theorem secpKey_inner (c : Bool) (k : SecpKey) :
    secpKey c k.bytes = some { compressed := c, inner := k } := by
  rw [secpKey, dif_pos k.size]

theorem readPublicKey_bytes (k : PublicKey) : readPublicKey (publicKeyBytes k) = some k := by
  obtain ⟨c, inner⟩ := k
  have hsize := inner.size
  cases c with
  | true =>
      have hne : ¬ inner.bytes.length = 65 := by omega
      rw [publicKeyBytes, if_pos rfl, readPublicKey, if_neg hne]
      exact secpKey_inner true inner
  | false =>
      obtain ⟨b, x, hb⟩ := List.exists_cons_of_length_eq_add_one hsize
      have hx : x.length = 32 := by
        rw [hb, List.length_cons] at hsize
        omega
      have hbytes : publicKeyBytes { compressed := false, inner } =
          0x04 :: (x ++ (List.replicate 31 0 ++ [b])) := by
        rw [publicKeyBytes, if_neg Bool.false_ne_true, hb]
        rfl
      have hlen : (0x04 :: (x ++ (List.replicate 31 0 ++ [b]))).length = 65 := by
        simp [hx]
      have hdrop : (0x04 :: (x ++ (List.replicate 31 0 ++ [b]))).drop 64 = [b] := by
        have hsplit : 0x04 :: (x ++ (List.replicate 31 0 ++ [b])) =
            (0x04 :: (x ++ List.replicate 31 0)) ++ [b] := by
          simp [List.append_assoc]
        have hfirst : (0x04 :: (x ++ List.replicate 31 0)).length = 64 := by
          simp [hx]
        rw [hsplit, List.drop_left' hfirst]
      have htake : ((0x04 :: (x ++ (List.replicate 31 0 ++ [b]))).drop 1).take 32 = x := by
        rw [List.drop_succ_cons, List.drop_zero, ← hx, List.take_left]
      rw [hbytes, readPublicKey, if_pos hlen, hdrop, htake, List.singleton_append, ← hb]
      exact secpKey_inner false inner

/-- The sighash type of a byte, if it has one. -/
def sighashOf (b : UInt8) : Option EcdsaSighashType :=
  if b = 0x01 then some .all
  else if b = 0x02 then some .none
  else if b = 0x03 then some .single
  else if b = 0x81 then some .allPlusAnyoneCanPay
  else if b = 0x82 then some .nonePlusAnyoneCanPay
  else if b = 0x83 then some .singlePlusAnyoneCanPay
  else none

/-- The DER signature, then its sighash type. -/
def signatureToVec (s : Signature) : Bytes :=
  s.signature ++ [UInt8.ofNat s.sighashType.toPsbt.toNat]

def signatureFromSlice (bytes : Bytes) : Option Signature := do
  let last ← bytes.getLast?
  let sighashType ← sighashOf last
  some { signature := bytes.dropLast, sighashType }

theorem signatureFromSlice_toVec (s : Signature) :
    signatureFromSlice (signatureToVec s) = some s := by
  have hsighash : sighashOf (UInt8.ofNat s.sighashType.toPsbt.toNat) = some s.sighashType := by
    cases s.sighashType <;> rfl
  rw [signatureFromSlice, signatureToVec]
  simp only [List.getLast?_append, List.getLast?_singleton, Option.some_or, List.dropLast_concat,
    Option.bind_eq_bind, Option.bind_some, hsighash]

/-! ## Fields -/

/-- The field of a value that may be absent. -/
def optField {α : Type} (key : Bytes) (enc : α → Bytes) (v : Option α) : RawFields :=
  v.toList.map (fun a => (key, enc a))

/-- One field for each row of a table; the key ends with the row's key. -/
def tableFields {κ ν : Type} [Ord κ] [Std.TransOrd κ] (keyType : UInt8) (key : κ → Bytes)
    (value : ν → Bytes) (t : Table κ ν) : RawFields :=
  t.toList.map (fun row => (keyType :: key row.1, value row.2))

/-- Fields that are kept as they are. -/
def rawFields (fields : RawFields) : RawFields := fields.filter (fun f => f.1 ≠ [])

/-- Reading a field that may be absent sets it. -/
theorem foldlM_optField {α σ : Type} {step : σ → Bytes × Bytes → Option σ} {key : Bytes}
    {enc : α → Bytes} {v : Option α} {s : σ} (set : Option α → σ) (hnone : set none = s)
    (hsome : ∀ a, v = some a → step s (key, enc a) = some (set (some a))) :
    (optField key enc v).foldlM step s = some (set v) := by
  cases v with
  | none => simp [optField, hnone]
  | some a => simp [optField, hsome a rfl]

/-- Reading the fields of a table inserts its rows. -/
theorem foldlM_tableFields {κ ν σ : Type} [Ord κ] [Std.TransOrd κ] [Std.LawfulEqOrd κ]
    [DecidableEq κ] {step : σ → Bytes × Bytes → Option σ} {keyType : UInt8} {key : κ → Bytes}
    {value : ν → Bytes} (t : Table κ ν) (set : Table κ ν → σ)
    (hstep : ∀ (u : Table κ ν) (k : κ) (v : ν), t[k]? = some v →
      step (set u) (keyType :: key k, value v) = some (set (u.insert k v))) :
    (tableFields keyType key value t).foldlM step (set ∅) = some (set t) := by
  have hrows : ∀ (rows : List (κ × ν)) (u : Table κ ν), (∀ row ∈ rows, t[row.1]? = some row.2) →
      (rows.map (fun row => (keyType :: key row.1, value row.2))).foldlM step (set u) =
        some (set (rows.foldl (fun u row => u.insert row.1 row.2) u)) := by
    intro rows
    induction rows with
    | nil => intro u _; rfl
    | cons row rows ih =>
        intro u h
        have hrow := h row (List.mem_cons_self ..)
        rw [List.map_cons, List.foldlM_cons, hstep u row.1 row.2 hrow]
        exact ih _ (fun r hr => h r (List.mem_cons_of_mem _ hr))
  rw [tableFields, hrows t.toList ∅ (fun row hrow => Table.mem_toList.mp hrow),
    Table.insertRows_toList]

/-! ## Input maps -/

def derivationFields (t : Table SecpKey KeySource) (keyType : UInt8) : RawFields :=
  tableFields keyType SecpKey.bytes encodeKeySource t

def signatureFields (t : Table PublicKey Signature) : RawFields :=
  tableFields 0x02 publicKeyBytes signatureToVec t

/-- The fields of an input before its signatures. -/
def inputUtxoFields (i : PsbtInput) : RawFields :=
  optField [0x00] serializeTx i.nonWitnessUtxo ++ optField [0x01] encodeTxOut i.witnessUtxo

/-- The fields of an input after its signatures. -/
def inputScriptFields (i : PsbtInput) : RawFields :=
  optField [0x03] encodeU32 i.sighashType ++ (optField [0x04] id i.redeemScript ++
    (optField [0x05] id i.witnessScript ++ (derivationFields i.bip32Derivation 0x06 ++
      (optField [0x07] id i.finalScriptSig ++
        (optField [0x08] encodeWitness i.finalScriptWitness ++ rawFields i.other)))))

def inputFields (i : PsbtInput) : RawFields :=
  inputUtxoFields i ++ (signatureFields i.partialSigs ++ inputScriptFields i)

/-- A field with a one-byte key of an input. -/
def addInputValue (i : PsbtInput) (keyType : UInt8) (value : Bytes) : Option PsbtInput :=
  if keyType = 0x00 then (decodeAll decodeTx value).map (fun tx => { i with nonWitnessUtxo := some tx })
  else if keyType = 0x01 then
    (decodeAll decodeTxOut value).map (fun o => { i with witnessUtxo := some o })
  else if keyType = 0x03 then
    (decodeAll decodeU32 value).map (fun n => { i with sighashType := some n })
  else if keyType = 0x04 then some { i with redeemScript := some value }
  else if keyType = 0x05 then some { i with witnessScript := some value }
  else if keyType = 0x07 then some { i with finalScriptSig := some value }
  else if keyType = 0x08 then
    (decodeAll decodeWitness value).map (fun w => { i with finalScriptWitness := some w })
  else some { i with other := i.other ++ [([keyType], value)] }

/-- A field with a longer key: a signature, a derivation or an unknown one. -/
def addInputRow (i : PsbtInput) (keyType : UInt8) (key value : Bytes) : Option PsbtInput :=
  if keyType = 0x02 then do
    let k ← readPublicKey key
    let s ← signatureFromSlice value
    some { i with partialSigs := i.partialSigs.insert k s }
  else if keyType = 0x06 then do
    let k ← secpKey true key
    let source ← readKeySource value
    some { i with bip32Derivation := i.bip32Derivation.insert k.inner source }
  else some { i with other := i.other ++ [(keyType :: key, value)] }

def addInputField (i : PsbtInput) (f : Bytes × Bytes) : Option PsbtInput :=
  match f.1 with
  | [] => none
  | [keyType] => addInputValue i keyType f.2
  | keyType :: key => addInputRow i keyType key f.2

/-- What the wire can carry of an input. -/
structure WireInput (i : PsbtInput) : Prop where
  other : i.other = []
  funding : ∀ tx, i.nonWitnessUtxo = some tx → tx.input ≠ [] ∧ Bounded tx
  script : ∀ o, i.witnessUtxo = some o → o.scriptPubkey.length < 2 ^ 64
  witness : ∀ stack, i.finalScriptWitness = some stack →
    stack.length < 2 ^ 64 ∧ ∀ item ∈ stack, item.length < 2 ^ 64

theorem publicKeyBytes_ne_nil (k : PublicKey) : publicKeyBytes k ≠ [] := by
  intro hnil
  have hread := readPublicKey_bytes k
  rw [hnil] at hread
  cases hread

theorem SecpKey.bytes_ne_nil (k : SecpKey) : k.bytes ≠ [] := by
  intro hnil
  have hsize := k.size
  rw [hnil] at hsize
  cases hsize

/-- A field whose key has bytes after its type. -/
theorem addInputField_row (i : PsbtInput) (keyType : UInt8) {key : Bytes} (hkey : key ≠ [])
    (value : Bytes) :
    addInputField i (keyType :: key, value) = addInputRow i keyType key value := by
  obtain ⟨b, bytes, rfl⟩ := List.exists_cons_of_ne_nil hkey
  rfl

theorem decodeTx_all {tx : Transaction} (hne : tx.input ≠ []) (hb : Bounded tx) :
    decodeAll decodeTx (serializeTx tx) = some tx := by
  have hread := decodeTx_serializeTx hne hb []
  rw [List.append_nil] at hread
  rw [decodeAll, hread]

/-- The fields of an input read back as the input. -/
theorem readInput_inputFields {i : PsbtInput} (h : WireInput i) :
    (inputFields i).foldlM addInputField {} = some i := by
  obtain ⟨utxo, txout, sigs, sighash, redeem, script, derivation, finalSig, finalWitness, other⟩ := i
  have hother : other = [] := h.other
  subst hother
  -- one step for each kind of field, in the order they are written
  have h₀ : (optField [0x00] serializeTx utxo).foldlM addInputField {} =
      some { nonWitnessUtxo := utxo } := by
    refine foldlM_optField (fun v => ({ nonWitnessUtxo := v } : PsbtInput)) rfl fun tx htx => ?_
    obtain ⟨hne, hb⟩ := h.funding tx htx
    simp only [addInputField, addInputValue, if_true, decodeTx_all hne hb, Option.map_some]
  have h₁ : ∀ s : PsbtInput, s.witnessUtxo = none →
      (optField [0x01] encodeTxOut txout).foldlM addInputField s =
        some { s with witnessUtxo := txout } := by
    intro s hs
    refine foldlM_optField (fun v => { s with witnessUtxo := v }) (by rw [← hs]) fun o ho => ?_
    have hread := decodeAll_encode txOut_roundTrips (h.script o ho)
    have hkey : (0x01 : UInt8) ≠ 0x00 := by decide
    simp only [addInputField, addInputValue, if_neg hkey, if_true, hread, Option.map_some]
  have h₂ : ∀ s : PsbtInput, s.partialSigs = ∅ →
      (signatureFields sigs).foldlM addInputField s = some { s with partialSigs := sigs } := by
    intro s hs
    have hstart : s = { s with partialSigs := ∅ } := by rw [← hs]
    rw [hstart]
    refine foldlM_tableFields sigs (fun t => { s with partialSigs := t }) fun u k v _ => ?_
    rw [addInputField_row _ _ (publicKeyBytes_ne_nil k), addInputRow, if_pos rfl,
      readPublicKey_bytes, signatureFromSlice_toVec]
    rfl
  have h₃ : ∀ s : PsbtInput, s.sighashType = none →
      (optField [0x03] encodeU32 sighash).foldlM addInputField s =
        some { s with sighashType := sighash } := by
    intro s hs
    refine foldlM_optField (fun v => { s with sighashType := v }) (by rw [← hs]) fun n _ => ?_
    have hread := decodeAll_encode u32_roundTrips (a := n) trivial
    have hfield : addInputField s ([0x03], encodeU32 n) =
        (decodeAll decodeU32 (encodeU32 n)).map (fun n => { s with sighashType := some n }) := rfl
    rw [hfield, hread, Option.map_some]
  have h₄ : ∀ s : PsbtInput, s.redeemScript = none →
      (optField [0x04] id redeem).foldlM addInputField s = some { s with redeemScript := redeem } :=
    fun s hs => foldlM_optField (fun v => { s with redeemScript := v }) (by rw [← hs])
      fun _ _ => rfl
  have h₅ : ∀ s : PsbtInput, s.witnessScript = none →
      (optField [0x05] id script).foldlM addInputField s = some { s with witnessScript := script } :=
    fun s hs => foldlM_optField (fun v => { s with witnessScript := v }) (by rw [← hs])
      fun _ _ => rfl
  have h₆ : ∀ s : PsbtInput, s.bip32Derivation = ∅ →
      (derivationFields derivation 0x06).foldlM addInputField s =
        some { s with bip32Derivation := derivation } := by
    intro s hs
    have hstart : s = { s with bip32Derivation := ∅ } := by rw [← hs]
    rw [hstart]
    refine foldlM_tableFields derivation (fun t => { s with bip32Derivation := t })
      fun u k v _ => ?_
    have hkey : (0x06 : UInt8) ≠ 0x02 := by decide
    rw [addInputField_row _ _ (SecpKey.bytes_ne_nil k), addInputRow, if_neg hkey, if_pos rfl,
      secpKey_inner, readKeySource_encode]
    rfl
  have h₇ : ∀ s : PsbtInput, s.finalScriptSig = none →
      (optField [0x07] id finalSig).foldlM addInputField s =
        some { s with finalScriptSig := finalSig } :=
    fun s hs => foldlM_optField (fun v => { s with finalScriptSig := v }) (by rw [← hs])
      fun _ _ => rfl
  have h₈ : ∀ s : PsbtInput, s.finalScriptWitness = none →
      (optField [0x08] encodeWitness finalWitness).foldlM addInputField s =
        some { s with finalScriptWitness := finalWitness } := by
    intro s hs
    refine foldlM_optField (fun v => { s with finalScriptWitness := v }) (by rw [← hs])
      fun w hw => ?_
    have hread := decodeAll_encode witness_roundTrips (h.witness w hw)
    have hfield : addInputField s ([0x08], encodeWitness w) =
        (decodeAll decodeWitness (encodeWitness w)).map
          (fun w => { s with finalScriptWitness := some w }) := rfl
    rw [hfield, hread, Option.map_some]
  simp only [inputFields, inputUtxoFields, inputScriptFields, List.foldlM_append, h₀,
    Option.bind_eq_bind, Option.bind_some]
  rw [h₁ _ rfl, Option.bind_some, h₂ _ rfl, Option.bind_some, h₃ _ rfl, Option.bind_some,
    h₄ _ rfl, Option.bind_some, h₅ _ rfl, Option.bind_some, h₆ _ rfl, Option.bind_some,
    h₇ _ rfl, Option.bind_some, h₈ _ rfl, Option.bind_some]
  rfl

/-! ## Output maps -/

def outputFields (o : PsbtOutput) : RawFields :=
  optField [0x00] id o.redeemScript ++ (optField [0x01] id o.witnessScript ++
    (derivationFields o.bip32Derivation 0x02 ++ rawFields o.other))

def addOutputField (o : PsbtOutput) (f : Bytes × Bytes) : Option PsbtOutput :=
  match f.1 with
  | [] => none
  | [keyType] =>
      if keyType = 0x00 then some { o with redeemScript := some f.2 }
      else if keyType = 0x01 then some { o with witnessScript := some f.2 }
      else some { o with other := o.other ++ [f] }
  | keyType :: key =>
      if keyType = 0x02 then do
        let k ← secpKey true key
        let source ← readKeySource f.2
        some { o with bip32Derivation := o.bip32Derivation.insert k.inner source }
      else some { o with other := o.other ++ [f] }

/-- The fields of an output read back as the output. -/
theorem readOutput_outputFields {o : PsbtOutput} (h : o.other = []) :
    (outputFields o).foldlM addOutputField {} = some o := by
  obtain ⟨redeem, script, derivation, other⟩ := o
  have hother : other = [] := h
  subst hother
  have h₀ : (optField [0x00] id redeem).foldlM addOutputField {} =
      some { redeemScript := redeem } :=
    foldlM_optField (fun v => ({ redeemScript := v } : PsbtOutput)) rfl fun _ _ => rfl
  have h₁ : ∀ s : PsbtOutput, s.witnessScript = none →
      (optField [0x01] id script).foldlM addOutputField s =
        some { s with witnessScript := script } :=
    fun s hs => foldlM_optField (fun v => { s with witnessScript := v }) (by rw [← hs])
      fun _ _ => rfl
  have h₂ : ∀ s : PsbtOutput, s.bip32Derivation = ∅ →
      (derivationFields derivation 0x02).foldlM addOutputField s =
        some { s with bip32Derivation := derivation } := by
    intro s hs
    have hstart : s = { s with bip32Derivation := ∅ } := by rw [← hs]
    rw [hstart]
    refine foldlM_tableFields derivation (fun t => { s with bip32Derivation := t })
      fun u k v _ => ?_
    obtain ⟨b, bytes, hkey⟩ := List.exists_cons_of_ne_nil (SecpKey.bytes_ne_nil k)
    have hread := secpKey_inner true k
    rw [hkey] at hread
    rw [hkey, addOutputField]
    simp only [if_true, hread, readKeySource_encode, Option.bind_eq_bind, Option.bind_some]
  simp only [outputFields, List.foldlM_append, h₀, Option.bind_eq_bind, Option.bind_some]
  rw [h₁ _ rfl, Option.bind_some, h₂ _ rfl, Option.bind_some]
  rfl

/-! ## The whole PSBT -/

/-- The fields of the global map. -/
structure GlobalMap where
  unsignedTx : Option Transaction := none
  version : Nat := 0
  xpub : Table Xpub KeySource := ∅
  proprietary : RawFields := []
  unknown : RawFields := []

def versionFields (version : Nat) : RawFields :=
  if version = 0 then [] else [([0xfb], leBytes 4 version)]

def globalFields (p : Psbt) : RawFields :=
  ([0x00], encodeLegacy p.unsignedTx) :: (tableFields 0x01 id encodeKeySource p.xpub ++
    (versionFields p.version ++ (rawFields p.proprietary ++ rawFields p.unknown)))

def addGlobalField (g : GlobalMap) (f : Bytes × Bytes) : Option GlobalMap :=
  match f.1 with
  | [] => none
  | keyType :: key =>
      if keyType = 0x00 ∧ key = [] then
        (decodeAll decodeLegacy f.2).map (fun tx => { g with unsignedTx := some tx })
      else if keyType = 0x01 then
        (readKeySource f.2).map (fun source => { g with xpub := g.xpub.insert key source })
      else if keyType = 0xfb ∧ key = [] then
        (decodeAll (decodeLe 4) f.2).map (fun n => { g with version := n })
      else if keyType = 0xfc then some { g with proprietary := g.proprietary ++ [f] }
      else some { g with unknown := g.unknown ++ [f] }

/-- Reads one map, field by field. -/
def readMap {σ : Type} (step : σ → Bytes × Bytes → Option σ) (init : σ) : Decoder σ := fun bytes =>
  (decodeFields (bytes.length + 1) bytes).bind (fun r =>
    (r.1.foldlM step init).map (fun s => (s, r.2)))

/-- `Psbt::deserialize_from_reader`, with the bytes it left. -/
def readPsbt (bytes : Bytes) : Option (Psbt × Bytes) :=
  if psbtMagic.isPrefixOf bytes then
    (readMap addGlobalField {} (bytes.drop 5)).bind (fun g =>
      g.1.unsignedTx.bind (fun tx =>
        (decodeMany (readMap addInputField {}) tx.input.length g.2).bind (fun i =>
          (decodeMany (readMap addOutputField {}) tx.output.length i.2).map (fun o =>
            ({ unsignedTx := tx
               version := g.1.version
               xpub := g.1.xpub
               proprietary := g.1.proprietary
               unknown := g.1.unknown
               inputs := i.1
               outputs := o.1 }, o.2)))))
  else none

/-- `Psbt::serialize`. -/
def writePsbt (p : Psbt) : Bytes :=
  psbtMagic ++ (encodeMap (globalFields p) ++
    (p.inputs.map inputFields ++ p.outputs.map outputFields).flatMap encodeMap)

/-- One map is read for each input and output. -/
theorem readPsbt_lengths {bytes rest : Bytes} {p : Psbt} (h : readPsbt bytes = some (p, rest)) :
    p.inputs.length = p.unsignedTx.input.length ∧
      p.outputs.length = p.unsignedTx.output.length := by
  rw [readPsbt] at h
  split_ifs at h
  simp only [Option.bind_eq_some_iff, Option.map_eq_some_iff, Prod.mk.injEq] at h
  obtain ⟨_, _, tx, _, i, hi, o, ho, rfl, _⟩ := h
  exact ⟨length_of_decodeMany hi, length_of_decodeMany ho⟩

/-- A map whose fields fold to a value reads back as the value. -/
theorem readMap_encodeMap {σ : Type} {step : σ → Bytes × Bytes → Option σ} {init s : σ}
    {fields : RawFields} (hf : Encodable fields) (hs : fields.foldlM step init = some s)
    (rest : Bytes) : readMap step init (encodeMap fields ++ rest) = some (s, rest) := by
  have hpos : ∀ f ∈ fields, 0 < (encodeField f).length := fun f _ => by
    have := varBytes_pos f.1
    rw [encodeField, List.length_append]
    omega
  have hcount := length_le_length_flatMap hpos
  have hfuel : fields.length < (encodeMap fields ++ rest).length + 1 := by
    rw [encodeMap, List.length_append, List.length_append]
    omega
  rw [readMap, decodeFields_encodeMap hf hfuel, Option.bind_some, hs, Option.map_some]

/-- Every map of a list reads back. -/
theorem readMany_encodeMap {σ : Type} {step : σ → Bytes × Bytes → Option σ} {init : σ}
    {fields : σ → RawFields} {l : List σ} (hf : ∀ s ∈ l, Encodable (fields s))
    (hs : ∀ s ∈ l, (fields s).foldlM step init = some s) (rest : Bytes) :
    decodeMany (readMap step init) l.length ((l.map fields).flatMap encodeMap ++ rest) =
      some (l, rest) := by
  have hrt : RoundTrips (fun s => encodeMap (fields s)) (readMap step init) (fun s => s ∈ l) :=
    fun s hmem rest => readMap_encodeMap (hf s hmem) (hs s hmem) rest
  rw [List.flatMap_map]
  exact decodeMany_append hrt (fun _ h => h) rest

/-- The global map of a well-formed PSBT reads back. -/
theorem readGlobal_globalFields {p : Psbt} (hp : p.WellFormed) (hb : Bounded p.unsignedTx) :
    (globalFields p).foldlM addGlobalField {} =
      some { unsignedTx := some p.unsignedTx, xpub := p.xpub } := by
  have htx : addGlobalField {} ([0x00], encodeLegacy p.unsignedTx) =
      some { unsignedTx := some p.unsignedTx } := by
    have hread := decodeAll_encode legacy_roundTrips ⟨hb, fun i hi => (hp.unsigned i hi).2⟩
    have hfield : addGlobalField {} ([0x00], encodeLegacy p.unsignedTx) =
        (decodeAll decodeLegacy (encodeLegacy p.unsignedTx)).map
          (fun tx => { unsignedTx := some tx }) := rfl
    rw [hfield, hread, Option.map_some]
  have hxpub : (tableFields 0x01 id encodeKeySource p.xpub).foldlM addGlobalField
      { unsignedTx := some p.unsignedTx } =
      some { unsignedTx := some p.unsignedTx, xpub := p.xpub } := by
    refine foldlM_tableFields p.xpub
      (fun t => ({ unsignedTx := some p.unsignedTx, xpub := t } : GlobalMap)) fun u k v _ => ?_
    have hkey : ¬ ((0x01 : UInt8) = 0x00 ∧ k = []) := fun h => absurd h.1 (by decide)
    simp only [addGlobalField, id, if_neg hkey, if_true, readKeySource_encode, Option.map_some]
  rw [globalFields, List.foldlM_cons, htx]
  simp only [Option.bind_eq_bind, Option.bind_some, List.foldlM_append, hxpub, hp.version,
    hp.proprietary, hp.unknown]
  rfl

/-- What a well-formed PSBT of a bounded size holds fits the wire. -/
theorem wireInput_of_length {i : PsbtInput} (hother : i.other = [])
    (hfunding : ∀ tx, i.nonWitnessUtxo = some tx → tx.input ≠ []) {bound : Nat}
    (h : (encodeMap (inputFields i)).length ≤ bound) (hbound : bound < 2 ^ 64) : WireInput i := by
  have hvalue : ∀ f ∈ inputFields i, f.2.length ≤ bound := fun f hf => by
    have := length_value_lt_encodeMap hf
    omega
  refine ⟨hother, fun tx htx => ⟨hfunding tx htx, ?_⟩, fun o ho => ?_, fun stack hstack => ?_⟩
  · refine bounded_of_length (hvalue ([0x00], serializeTx tx) ?_) hbound
    simp [inputFields, inputUtxoFields, optField, htx]
  · have hlen : (encodeTxOut o).length ≤ bound := hvalue ([0x01], encodeTxOut o) (by
      simp [inputFields, inputUtxoFields, optField, ho])
    have hscript := length_le_varBytes o.scriptPubkey
    rw [length_encodeTxOut] at hlen
    omega
  · have hlen : (encodeWitness stack).length ≤ bound := hvalue ([0x08], encodeWitness stack) (by
      simp [inputFields, inputScriptFields, optField, hstack])
    have hcount := length_le_counted (e := varBytes) (l := stack) (fun w _ => varBytes_pos w)
    rw [encodeWitness] at hlen
    refine ⟨by omega, fun item hitem => ?_⟩
    have hmem := length_mem_counted (e := varBytes) hitem
    have hle := length_le_varBytes item
    omega

/-- No field has an empty key, which would close its map. -/
theorem optField_key {α : Type} {b : UInt8} {enc : α → Bytes} {v : Option α} :
    ∀ f ∈ optField [b] enc v, f.1 ≠ [] := by
  cases v <;> simp [optField]

theorem tableFields_key {κ ν : Type} [Ord κ] [Std.TransOrd κ] {b : UInt8} {key : κ → Bytes}
    {value : ν → Bytes} {t : Table κ ν} : ∀ f ∈ tableFields b key value t, f.1 ≠ [] := by
  intro f hf
  obtain ⟨row, _, rfl⟩ := List.mem_map.mp hf
  exact List.cons_ne_nil _ _

theorem rawFields_key {fields : RawFields} : ∀ f ∈ rawFields fields, f.1 ≠ [] := by
  intro f hf
  have hkey := (List.mem_filter.mp hf).2
  simpa using hkey

theorem globalFields_key (p : Psbt) : ∀ f ∈ globalFields p, f.1 ≠ [] := by
  have hversion : ∀ f ∈ versionFields p.version, f.1 ≠ [] := by
    rw [versionFields]
    split_ifs <;> simp
  rw [globalFields, List.forall_mem_cons]
  simp only [List.forall_mem_append]
  exact ⟨by simp, tableFields_key, hversion, rawFields_key, rawFields_key⟩

theorem inputFields_key (i : PsbtInput) : ∀ f ∈ inputFields i, f.1 ≠ [] := by
  simp only [inputFields, inputUtxoFields, inputScriptFields, signatureFields, derivationFields,
    List.forall_mem_append]
  exact ⟨⟨optField_key, optField_key⟩, tableFields_key, optField_key, optField_key, optField_key,
    tableFields_key, optField_key, optField_key, rawFields_key⟩

theorem outputFields_key (o : PsbtOutput) : ∀ f ∈ outputFields o, f.1 ≠ [] := by
  simp only [outputFields, derivationFields, List.forall_mem_append]
  exact ⟨optField_key, optField_key, tableFields_key, rawFields_key⟩

/-- The fields a well-formed PSBT does not use have their defaults. -/
theorem eq_of_wellFormed {p : Psbt} (hp : p.WellFormed) :
    p = { unsignedTx := p.unsignedTx
          xpub := p.xpub
          inputs := p.inputs
          outputs := p.outputs } := by
  obtain ⟨tx, version, xpub, proprietary, rest, inputs, outputs⟩ := p
  have hversion : version = 0 := hp.version
  have hproprietary : proprietary = [] := hp.proprietary
  have hrest : rest = [] := hp.unknown
  subst hversion hproprietary hrest
  rfl

/-- A PSBT reads back from its own serialization. -/
theorem readPsbt_writePsbt {p : Psbt} (hp : p.WellFormed)
    (hlen : (writePsbt p).length ≤ maxPsbtBytes) : readPsbt (writePsbt p) = some (p, []) := by
  have hbound : maxPsbtBytes < 2 ^ 64 := by decide
  have hparts : (encodeMap (globalFields p)).length +
      ((p.inputs.map inputFields ++ p.outputs.map outputFields).flatMap encodeMap).length ≤
        maxPsbtBytes := by
    rw [writePsbt, List.length_append, List.length_append] at hlen
    omega
  have hmap : ∀ m ∈ p.inputs.map inputFields ++ p.outputs.map outputFields,
      (encodeMap m).length ≤ maxPsbtBytes := fun m hm => by
    have hmem := length_le_flatMap (e := encodeMap) hm
    omega
  have hglobal : Encodable (globalFields p) :=
    encodable_of_length (globalFields_key p) (by omega) hbound
  have hinput : ∀ i ∈ p.inputs, (encodeMap (inputFields i)).length ≤ maxPsbtBytes := fun i hi =>
    hmap _ (List.mem_append_left _ (List.mem_map_of_mem hi))
  have houtput : ∀ o ∈ p.outputs, (encodeMap (outputFields o)).length ≤ maxPsbtBytes :=
    fun o ho => hmap _ (List.mem_append_right _ (List.mem_map_of_mem ho))
  have htx : (serializeTx p.unsignedTx).length ≤ maxPsbtBytes := by
    have hfield : (([0x00], encodeLegacy p.unsignedTx) : Bytes × Bytes) ∈ globalFields p := by
      simp [globalFields]
    have hvalue : (encodeLegacy p.unsignedTx).length < (encodeMap (globalFields p)).length :=
      (Nat.le_add_left ..).trans_lt (length_value_lt_encodeMap hfield)
    have hlegacy : serializeTx p.unsignedTx = encodeLegacy p.unsignedTx :=
      if_pos fun i hi => (hp.unsigned i hi).2
    rw [hlegacy]
    omega
  have hreadGlobal := readMap_encodeMap hglobal
    (readGlobal_globalFields hp (bounded_of_length htx hbound))
    ((p.inputs.map inputFields).flatMap encodeMap ++
      (p.outputs.map outputFields).flatMap encodeMap)
  have hreadInputs := readMany_encodeMap
    (fun i hi => encodable_of_length (inputFields_key i) (hinput i hi) hbound)
    (fun i hi => readInput_inputFields (wireInput_of_length (hp.inputs_other i hi)
      (hp.funding_inputs i hi) (hinput i hi) hbound))
    ((p.outputs.map outputFields).flatMap encodeMap)
  have hreadOutputs := readMany_encodeMap
    (fun o ho => encodable_of_length (outputFields_key o) (houtput o ho) hbound)
    (fun o ho => readOutput_outputFields (hp.outputs_other o ho)) []
  rw [List.append_nil] at hreadOutputs
  have hmagic : psbtMagic.isPrefixOf (writePsbt p) = true := rfl
  have hbody : (writePsbt p).drop 5 = encodeMap (globalFields p) ++
      ((p.inputs.map inputFields).flatMap encodeMap ++
        (p.outputs.map outputFields).flatMap encodeMap) := by
    rw [writePsbt, List.flatMap_append]
    rfl
  rw [readPsbt, hmagic, if_pos rfl, hbody, hreadGlobal, Option.bind_some, Option.bind_some,
    ← hp.inputs_length, hreadInputs, Option.bind_some, ← hp.outputs_length, hreadOutputs,
    Option.map_some]
  exact congrArg some (Prod.ext (eq_of_wellFormed hp).symm rfl)

/-! ## The laws the engine relies on -/

/-- Partial signatures are fields of their own. -/
theorem inputFields_perm (i : PsbtInput) : (inputFields i).Perm
    (i.partialSigs.toList.map (fun row => (0x02 :: publicKeyBytes row.1, signatureToVec row.2)) ++
      inputFields i.stripSignatures) := by
  have hstrip : inputFields i.stripSignatures = inputUtxoFields i ++ inputScriptFields i := rfl
  rw [hstrip, inputFields]
  exact List.perm_append_comm_assoc ..

/-- A bare input has at most one field for each derivation, and seven others. -/
theorem inputFields_length {i : PsbtInput} (hother : i.other = []) (hsigs : i.partialSigs = ∅) :
    (inputFields i).length ≤ 8 + i.bip32Derivation.size := by
  have hopt : ∀ {α : Type} (key : Bytes) (enc : α → Bytes) (v : Option α),
      (optField key enc v).length ≤ 1 := by
    intro α key enc v
    cases v <;> simp [optField]
  have hderivation : (derivationFields i.bip32Derivation 0x06).length = i.bip32Derivation.size := by
    rw [derivationFields, tableFields, List.length_map, Std.ExtTreeMap.length_toList]
  have hsignature : (signatureFields i.partialSigs).length = 0 := by
    rw [hsigs]
    rfl
  have hraw : (rawFields i.other).length = 0 := by
    rw [hother]
    rfl
  have h₀ := hopt [0x00] serializeTx i.nonWitnessUtxo
  have h₁ := hopt [0x01] encodeTxOut i.witnessUtxo
  have h₃ := hopt [0x03] encodeU32 i.sighashType
  have h₄ := hopt [0x04] id i.redeemScript
  have h₅ := hopt [0x05] id i.witnessScript
  have h₇ := hopt [0x07] id i.finalScriptSig
  have h₈ := hopt [0x08] encodeWitness i.finalScriptWitness
  simp only [inputFields, inputUtxoFields, inputScriptFields, List.length_append]
  omega

end Fixture
end Tundra
