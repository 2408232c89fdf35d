/-
  Tundra.Fixture.Frames

  The frames of a small PSBT: one UR frame, and two BBQr frames.  The readers
  of BBQr frames are general; the UR texts are those of the PSBT.
-/

import Tundra.Fixture.Env
import Tundra.Qr.RoundTrip

namespace Tundra
namespace Fixture

open Wire Relational Signing Checked Qr Gather

/-! ## The PSBT -/

def smallTx : Transaction where
  version := 2
  lockTime := 0
  input := [{ previousOutput := { txid := txidOfBytes [1], vout := 0 }
              scriptSig := []
              sequence := 0xfffffffd
              witness := [] }]
  output := [{ value := 1000, scriptPubkey := [] }]

def smallPsbt : Psbt where
  unsignedTx := smallTx
  inputs := [{}]
  outputs := [{}]

/-- Its serialization, in the two halves its BBQr frames hold. -/
def firstHalf : Bytes :=
  [112, 115, 98, 116, 255, 1, 0, 60, 2, 0, 0, 0, 1, 1, 0, 0, 0, 0, 0, 0, 0, 0, 0, 0, 0, 0, 0, 0, 0,
    0, 0, 0, 0, 0, 0, 0, 0, 0, 0, 0]

def secondHalf : Bytes :=
  [0, 0, 0, 0, 0, 0, 0, 0, 0, 0, 253, 255, 255, 255, 1, 232, 3, 0, 0, 0, 0, 0, 0, 0, 0, 0, 0, 0, 0,
    0, 0]

def smallBytes : Bytes := firstHalf ++ secondHalf

theorem smallPsbt_bytes : env.serializePsbt smallPsbt = smallBytes := by
  decide

theorem smallPsbt_wellFormed : smallPsbt.WellFormed where
  unsigned i hi := by
    rw [List.mem_singleton.mp hi]
    exact ⟨rfl, rfl⟩
  version := rfl
  proprietary := rfl
  unknown := rfl
  inputs_length := rfl
  outputs_length := rfl
  inputs_other := by decide
  outputs_other := by decide
  funding_inputs i hi tx htx := by
    rw [List.mem_singleton.mp hi] at htx
    cases htx

theorem smallPsbt_fits : WithinLimits env smallPsbt where
  size := by decide
  shape := ⟨1, 1, by decide, rfl⟩
  inputs := List.forall_mem_singleton.mpr ⟨by decide, by decide⟩
  outputs := List.forall_mem_singleton.mpr ⟨by decide, by decide⟩

theorem parse_smallBytes : parseResponse env smallBytes = .ok smallPsbt := by
  rw [← smallPsbt_bytes]
  exact (parseResponse_serializePsbt env smallPsbt_wellFormed).mpr ⟨smallPsbt_fits, rfl⟩

/-! ## The crates -/

/-- The value of a digit of the base 32 alphabet, as five bits. -/
def base32Bits (c : Char) : Option (List Bool) :=
  let digit := if 'A' ≤ c ∧ c ≤ 'Z' then some (c.toNat - 65)
    else if '2' ≤ c ∧ c ≤ '7' then some (c.toNat - 24)
    else none
  digit.map (fun n => [n.testBit 4, n.testBit 3, n.testBit 2, n.testBit 1, n.testBit 0])

/-- The bytes of some bits; fewer than five may be left, all of them zero. -/
def bytesOfBits : List Bool → Option Bytes
  | b₇ :: b₆ :: b₅ :: b₄ :: b₃ :: b₂ :: b₁ :: b₀ :: rest =>
      let byte := [b₇, b₆, b₅, b₄, b₃, b₂, b₁, b₀].foldl (fun n b => 2 * n + b.toNat) 0
      (bytesOfBits rest).map (UInt8.ofNat byte :: ·)
  | rest => if rest.length < 5 ∧ rest.all (!·) then some [] else none

def readBase32 (text : String) : Option Bytes :=
  (text.toList.mapM base32Bits).bind (fun bits => bytesOfBits bits.flatten)

def encodingOf : Char → Option Encoding
  | 'H' => some .hex
  | '2' => some .base32
  | 'Z' => some .zlib
  | _ => none

def fileTypeOf : Char → Option FileType
  | 'P' => some .psbt
  | 'U' => some .unicodeText
  | 'J' => some .json
  | c => if c ∈ ['T', 'C', 'B', 'X'] then some (.other c) else none

def readHeader (text : String) : Option Qr.Header :=
  match text.toList with
  | 'B' :: '$' :: e :: t :: n₁ :: n₀ :: _ => do
      let encoding ← encodingOf e
      let fileType ← fileTypeOf t
      let numParts ← fromStrRadix36 [n₁, n₀]
      some { encoding, fileType, numParts }
  | _ => none

/-- The PSBT as a CBOR byte string, and its UR. -/
def smallCbor : Bytes := 0x58 :: 71 :: smallBytes

def urFrame : String :=
  "ur:crypto-psbt/hdfljojkidjyzmadaefnaoaeaeaeadadaeaeaeaeaeaeaeaeaeaeaeaeaeaeaeaeaeaeaeaeaeaeaeae" ++
    "aeaeaeaeaeaeaeaeaeaezczmzmzmadvsaxaeaeaeaeaeaeaeaeaeaeaeaeaeaepkgosbpl"

def decodeFrame (text : String) : Option (UrKind × Bytes) :=
  if text = urFrame then some (.singlePart, smallCbor) else none

def encodeFrame (bytes : Bytes) (type : String) : Option String :=
  if bytes = smallCbor ∧ type = "crypto-psbt" then some urFrame else none

def readCbor (bytes : Bytes) : Option (Bytes × Bytes) :=
  if bytes = smallCbor then some (smallBytes, []) else none

def writeCbor (bytes : Bytes) : Option Bytes :=
  if bytes = smallBytes then some smallCbor else none

def qrCrates : QrCrates Unit Unit where
  sha256 bytes := bytes
  decodeUr := decodeFrame
  emptyDecoder := ()
  receive _ _ := none
  fragmentCount _ := 0
  resolvedFragmentCount _ := none
  complete _ := false
  message _ := none
  encodeUr := encodeFrame
  newEncoder _ _ _ := none
  encoderFragmentCount _ := 0
  nextPart _ := none
  readArray _ := none
  readU32 _ := none
  readBytes := readCbor
  writeBytes := writeCbor
  parseHeader := readHeader
  decodeHex _ := none
  decodeBase32 := readBase32
  splitParts _ _ := none
  decompress _ _ := none

theorem decodeFrame_ur : decodeFrame urFrame = some (.singlePart, smallCbor) := if_pos rfl

theorem encodeFrame_small : encodeFrame smallCbor "crypto-psbt" = some urFrame :=
  if_pos ⟨rfl, rfl⟩

theorem readCbor_small : readCbor smallCbor = some (smallBytes, []) := if_pos rfl

theorem writeCbor_small : writeCbor smallBytes = some smallCbor := if_pos rfl

theorem writeCbor_eq_some {b c : Bytes} (h : writeCbor b = some c) :
    b = smallBytes ∧ c = smallCbor := by
  rw [writeCbor] at h
  split_ifs at h with hb
  exact ⟨hb, (Option.some.inj h).symm⟩

theorem encodeFrame_eq_some {m : Bytes} {type frame : String}
    (h : encodeFrame m type = some frame) :
    m = smallCbor ∧ type = "crypto-psbt" ∧ frame = urFrame := by
  rw [encodeFrame] at h
  split_ifs at h with hsame
  exact ⟨hsame.1, hsame.2, (Option.some.inj h).symm⟩

theorem cborSpec : CborSpec qrCrates where
  read_write b c h := by
    obtain ⟨rfl, rfl⟩ := writeCbor_eq_some h
    exact readCbor_small
  length b c h _ := by
    obtain ⟨rfl, rfl⟩ := writeCbor_eq_some h
    decide

theorem urFrame_text : UrText "crypto-psbt" urFrame := by
  refine ⟨String.ofList (urFrame.toList.drop 15), ?_, ?_⟩
  · refine String.ext ?_
    rw [String.toList_append, String.toList_append, String.toList_append, String.toList_ofList]
    decide +kernel
  · have hlower : urFrame.toLower = urFrame.map Char.toLower := rfl
    refine String.ext ?_
    rw [hlower, String.toList_map]
    decide +kernel

theorem urSpec : UrSpec qrCrates where
  single m type frame _ h := by
    obtain ⟨rfl, rfl, rfl⟩ := encodeFrame_eq_some h
    have hdecode : qrCrates.decodeUr = decodeFrame := rfl
    rw [hdecode]
    exact ⟨urFrame_text, decodeFrame_ur⟩
  parts m k type encoder n frames _ _ _ h := by cases h
  recovers m k type encoder n frames seen _ _ _ h := by cases h

theorem bbqrSpec : BbqrSpec qrCrates where
  split payload fileType frames _ h := by cases h

theorem countsFragments : CountsFragments qrCrates where
  resolved_le decoder n h := by cases h
  count_lt decoder := by
    show 0 < 2 ^ 32
    decide

/-! ## Reading the frames -/

theorem encode_smallBytes : encodePsbt env qrCrates smallBytes .ur = .ok [urFrame] := by
  have hsize : ¬ smallBytes.length > maxQrPayloadBytes := by decide
  have hpayload : ¬ (smallBytes = [] ∨ smallBytes.length > maxQrPayloadBytes) := by decide
  have hwrite : qrCrates.writeBytes smallBytes = some smallCbor := writeCbor_small
  have hshort : smallCbor.length ≤ 250 := by decide
  have hencode : qrCrates.encodeUr smallCbor "crypto-psbt" = some urFrame :=
    encodeFrame_small
  have hframe : ¬ [urFrame].any (fun f => decide (f.utf8ByteSize > maxFrameCharacters)) = true := by
    decide +kernel
  rw [encodePsbt, parse_smallBytes, ok_bind]
  dsimp only
  rw [smallPsbt_bytes, require_of hsize, ok_bind, encodePayload, require_of hpayload, ok_bind]
  dsimp only
  rw [hwrite, okOr_some, ok_bind, if_pos hshort, hencode, okOr_some, ok_bind, ok_bind,
    require_of hframe, ok_bind]

/-! ### BBQr -/

def firstFrame : String :=
  "B$2P0200OBZWE5H7AEADYAQAAAAACAIAAAAAAAAAAAAAAAAAAAAAAAAAAAAAAAAAAAAAAAAA"

def secondFrame : String := "B$2P0201AAAAAAAAAAAAAAAA7X7777YB5ABQAAAAAAAAAAAAAAAAAAAAAA"

def setHeader : Qr.Header := { encoding := .base32, fileType := .psbt, numParts := 2 }

theorem firstFrame_part :
    IsPart qrCrates .signedPsbt setHeader [firstHalf, secondHalf] 0 firstFrame where
  bbqr := by decide
  part := ⟨firstHalf, rfl, by rfl⟩

theorem secondFrame_part :
    IsPart qrCrates .signedPsbt setHeader [firstHalf, secondHalf] 1 secondFrame where
  bbqr := by decide
  part := ⟨secondHalf, rfl, by rfl⟩

/-- The second frame, twice, and then the first. -/
def sightings : List Sighting := [⟨secondFrame, 1, 2⟩, ⟨secondFrame, 3, 4⟩, ⟨firstFrame, 5, 6⟩]

theorem sightings_budget : InBudget 0 sightings where
  time := by decide
  frame := by decide
  count := by decide
  bytes := by decide

theorem sightings_parts : ∀ s ∈ sightings,
    ∃ i, IsPart qrCrates .signedPsbt setHeader [firstHalf, secondHalf] i s.frame :=
  List.forall_mem_cons.mpr ⟨⟨1, secondFrame_part⟩, List.forall_mem_cons.mpr
    ⟨⟨1, secondFrame_part⟩, List.forall_mem_singleton.mpr ⟨0, firstFrame_part⟩⟩⟩

theorem bbqr_read :
    Attempted env qrCrates .signedPsbt setHeader [firstHalf, secondHalf]
      (scan env qrCrates (.new .signedPsbt 0) sightings) := by
  have hseen : seenIndices qrCrates .signedPsbt sightings = {1, 0} := by rfl
  obtain ⟨-, -, -, hdone, -⟩ := reassembly env qrCrates rfl (by decide) (by decide) sightings_parts
    sightings_budget
  refine hdone ?_
  show ¬ Missing [firstHalf, secondHalf] (seenIndices qrCrates .signedPsbt sightings)
  rw [hseen, Missing]
  decide

/-- A frame of three parts. -/
def foreignFrame : String :=
  "B$2P0300OBZWE5H7AEADYAQAAAAACAIAAAAAAAAAAAAAAAAAAAAAAAAAAAAAAAAAAAAAAAAA"

/-- A frame of another set before the first of a set opens the session: it is
    not failed. -/
theorem foreign_frame_opens :
    (∀ s ∈ sightings,
      ∃ i, IsPart qrCrates .signedPsbt setHeader [firstHalf, secondHalf] i s.frame) ∧
    isBbqr foreignFrame = true ∧
    (∃ other, qrCrates.parseHeader foreignFrame = some other ∧ other ≠ setHeader) ∧
    (receive env qrCrates (.new .signedPsbt 0) foreignFrame 1 2).2.progress.phase = .scanning := by
  let d : QrDecoder Unit := .new .signedPsbt 0
  have hbbqr : isBbqr foreignFrame = true := by decide
  have hbudget : WithinBudget d foreignFrame 1 := ⟨rfl, by decide, by decide, by decide, by decide⟩
  have hpart : bbqrPart qrCrates .signedPsbt foreignFrame =
      .ok ({ setHeader with numParts := 3 }, 0, firstHalf) := by rfl
  have hinner : receiveInner env qrCrates d foreignFrame 1 = (.ok (),
      { d with
        frames := 1
        bytes := foreignFrame.utf8ByteSize
        stream := .bbqr
          { header := { setHeader with numParts := 3 }
            parts := (∅ : Table Nat Bytes).insert 0 firstHalf
            bytes := 40 }
        progress := { phase := .scanning, resolvedFragments := 1, totalFragments := some 3 } }) := by
    rw [receiveInner_bbqr hbudget hbbqr, receiveBbqr]
    dsimp only
    have hpurpose : d.purpose = .signedPsbt := rfl
    rw [hpurpose, hpart, ok_bind]
    rfl
  refine ⟨sightings_parts, hbbqr, ⟨_, rfl, by decide⟩, ?_⟩
  rw [receive_of_ok rfl hinner rfl]

end Fixture
end Tundra
