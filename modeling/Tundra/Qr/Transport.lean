/-
  Tundra.Qr.Transport

  The QR transport (`qr.rs`): a scanner session that takes one frame text at a
  time, and the two encoders.  A session that fails keeps its counts, so a step
  returns its state together with its result; it drops its stream, so a step
  that fails leaves the stream as it found it.  The `ur`,
  `bbqr`, `minicbor`, `data_encoding` and `flate2` crates are a record of
  functions; clock readings are arguments, in nanoseconds.
-/

import Tundra.Selected
import Tundra.Descriptor
import Tundra.Signing.Response

namespace Tundra
namespace Qr

open Checked Relational Signing StoreSelection

/-! ## Limits -/

def maxQrPayloadBytes : Nat := 131072

def maxFrameCharacters : Nat := 4296

def maxFragments : Nat := 512

def maxFrames : Nat := 4096

def maxScannedBytes : Nat := 8 * 1048576

def sessionLifetime : Nat := 180 * 1000000000

def invalid : Error := .invalidInput "invalid, conflicting or unsupported QR payload"

def limit : Error := .invalidInput "QR session exceeded a size, frame or time limit"

def closed : Error := .invalidInput "QR session is closed"

/-! ## Data -/

inductive QrPurpose where
  | signedPsbt
  | descriptor (network : Network)
  deriving DecidableEq, Repr

inductive QrFormat where
  | ur
  | bbqr
  deriving DecidableEq, Repr

inductive QrPhase where
  | scanning
  | complete
  | cancelled
  | failed
  deriving DecidableEq, Repr

structure QrProgress where
  phase : QrPhase
  resolvedFragments : Nat
  totalFragments : Option Nat
  deriving DecidableEq, Repr

/-- `bbqr::encode::Encoding`. -/
inductive Encoding where
  | hex
  | base32
  | zlib
  deriving DecidableEq, Repr

/-- `bbqr::file_type::FileType`; the types no purpose allows are `other`. -/
inductive FileType where
  | psbt
  | unicodeText
  | json
  | other (letter : Char)
  deriving DecidableEq, Repr

/-- `bbqr::header::Header`. -/
structure Header where
  encoding : Encoding
  fileType : FileType
  numParts : Nat
  deriving DecidableEq, Repr

/-- `ur::ur::Kind`. -/
inductive UrKind where
  | singlePart
  | multiPart
  deriving DecidableEq, Repr

structure UrIdentity where
  kind : String
  fragments : Nat
  length : Nat
  checksum : Nat
  fragmentBytes : Nat
  deriving DecidableEq, Repr

/-- The functions of the QR crates.  `Decoder` and `Encoder` are those of `ur`. -/
structure QrCrates (Decoder Encoder : Type) where
  /-- `sha256::Hash::hash`. -/
  sha256 : Bytes → Bytes
  /-- `ur::decode`. -/
  decodeUr : String → Option (UrKind × Bytes)
  /-- `ur::Decoder::default`. -/
  emptyDecoder : Decoder
  receive : Decoder → String → Option Decoder
  fragmentCount : Decoder → Nat
  resolvedFragmentCount : Decoder → Option Nat
  complete : Decoder → Bool
  message : Decoder → Option (Option Bytes)
  /-- `ur::ur::try_encode` with a custom type. -/
  encodeUr : Bytes → String → Option String
  /-- `ur::Encoder::new`: a message, the greatest fragment length and the type. -/
  newEncoder : Bytes → Nat → String → Option Encoder
  encoderFragmentCount : Encoder → Nat
  nextPart : Encoder → Option (String × Encoder)
  /-- `minicbor::Decoder`: a value and the bytes after it. -/
  readArray : Bytes → Option (Option Nat × Bytes)
  readU32 : Bytes → Option (Nat × Bytes)
  readBytes : Bytes → Option (Bytes × Bytes)
  /-- `minicbor::Encoder::bytes`. -/
  writeBytes : Bytes → Option Bytes
  /-- `Header::try_from_str`. -/
  parseHeader : String → Option Header
  /-- `HEXUPPER.decode` and `BASE32_NOPAD.decode` of a text's bytes. -/
  decodeHex : String → Option Bytes
  decodeBase32 : String → Option Bytes
  /-- `Split::try_from_data`, compressed, in at most `maxFragments` parts of
      versions 5 to 15. -/
  splitParts : Bytes → FileType → Option (List String)
  /-- `decompress_vec` of raw DEFLATE with a 10-bit window into so many bytes:
      has the stream ended, the output, and how much was read. -/
  decompress : Bytes → Nat → Option (Bool × Bytes × Nat)

structure UrStream (Decoder : Type) where
  identity : UrIdentity
  decoder : Decoder
  seen : Table Nat Bytes

structure BbqrStream where
  header : Header
  parts : Table Nat Bytes
  bytes : Nat

inductive QrStream (Decoder : Type) where
  | empty
  | ur (stream : UrStream Decoder)
  | bbqr (stream : BbqrStream)
  | payload (bytes : Bytes)

/-- One scanner session. -/
structure QrDecoder (Decoder : Type) where
  purpose : QrPurpose
  started : Nat
  frames : Nat
  bytes : Nat
  progress : QrProgress
  stream : QrStream Decoder

variable {State Wallet Scan Decoder Encoder : Type} (env : Env State Wallet Scan)
  (qr : QrCrates Decoder Encoder)

namespace QrDecoder

def new (purpose : QrPurpose) (now : Nat) : QrDecoder Decoder where
  purpose
  started := now
  frames := 0
  bytes := 0
  progress := { phase := .scanning, resolvedFragments := 0, totalFragments := none }
  stream := .empty

/-- The session as `progress` leaves it: an expired one has failed. -/
def expire (d : QrDecoder Decoder) (now : Nat) : QrDecoder Decoder :=
  if d.progress.phase = .scanning ∧ now - d.started > sessionLifetime then
    { d with
      stream := .empty
      progress := { d.progress with phase := .failed } }
  else d

def cancel (d : QrDecoder Decoder) (now : Nat) : QrDecoder Decoder :=
  expire
    { d with
      stream := .empty
      progress := { d.progress with phase := .cancelled } } now

def payload (d : QrDecoder Decoder) : Result Bytes := do
  require (d.progress.phase = .complete) (.unavailable "complete QR payload")
  match d.stream with
  | .payload bytes => .ok bytes
  | _ => .error .corruptState

end QrDecoder

/-! ## Payloads -/

/-- What a purpose accepts, in the form it is handed on. -/
def validate (purpose : QrPurpose) (bytes : Bytes) (binaryPsbt : Bool) : Result Bytes :=
  match purpose with
  | .signedPsbt => do
      require (binaryPsbt = true → psbtMagic <+: bytes) invalid
      let psbt ← orError (parseResponse env bytes) invalid
      .ok (env.serializePsbt psbt)
  | .descriptor network => do
      let text ← okOr (String.fromUTF8? ⟨bytes.toArray⟩) invalid
      let _ ← orError (Descriptors.previewImport env text network) invalid
      .ok bytes

def finish (d : QrDecoder Decoder) (bytes : Bytes) (binaryPsbt : Bool) :
    Result Unit × QrDecoder Decoder :=
  if bytes.length > maxQrPayloadBytes then (.error limit, d)
  else
    match validate env d.purpose bytes binaryPsbt with
    | .error e => (.error e, d)
    | .ok bytes =>
        let total := d.progress.totalFragments.getD 1
        (.ok (),
          { d with
            stream := .payload bytes
            progress := { phase := .complete, resolvedFragments := total, totalFragments := total } })

/-- Only one definite byte string, and nothing after it. -/
def cborBytes (bytes : Bytes) : Result Bytes := do
  let (payload, rest) ← okOr (qr.readBytes bytes) invalid
  require (rest = [] ∧ payload.length ≤ maxQrPayloadBytes) invalid
  .ok payload

/-- The header of a fountain part and its sequence number. -/
def urIdentity (kind : String) (bytes : Bytes) : Result (UrIdentity × Nat) := do
  let (array, rest) ← okOr (qr.readArray bytes) invalid
  require (array = some 5) invalid
  let (sequence, rest) ← okOr (qr.readU32 rest) invalid
  let (fragments, rest) ← okOr (qr.readU32 rest) invalid
  let (length, rest) ← okOr (qr.readU32 rest) invalid
  let (checksum, rest) ← okOr (qr.readU32 rest) invalid
  let (data, rest) ← okOr (qr.readBytes rest) invalid
  let fragmentBytes := data.length
  require (¬ (sequence = 0 ∨ rest ≠ [] ∨ fragmentBytes = 0)) invalid
  require ((1 ≤ fragments ∧ fragments ≤ maxFragments) ∧ ¬ length > maxQrPayloadBytes + 5) limit
  require (¬ (length ≤ (fragments - 1) * fragmentBytes ∨ length > fragments * fragmentBytes)) invalid
  .ok ({ kind, fragments, length, checksum, fragmentBytes }, sequence)

/-- The fixed capacity bounds the output; the stream must end with its input. -/
def inflate (bytes : Bytes) : Result Bytes := do
  let (ended, output, totalIn) ← okOr (qr.decompress bytes (maxQrPayloadBytes + 1)) invalid
  require (output.length ≤ maxQrPayloadBytes) limit
  require (ended = true ∧ totalIn = bytes.length) invalid
  .ok output

/-! ## UR frames -/

/-- The type of a UR frame, the text between `ur:` and the first slash. -/
def urType (frame : String) : String := String.ofList ((frame.toList.drop 3).takeWhile (· ≠ '/'))

def allowedType (purpose : QrPurpose) (kind : String) : Bool :=
  match purpose with
  | .signedPsbt => kind = "crypto-psbt" || kind = "psbt" || kind = "bytes"
  | .descriptor _ => kind = "bytes"

/-- The stream a fountain part continues, or starts. -/
def urStream (stream : QrStream Decoder) (identity : UrIdentity) : Result (UrStream Decoder) :=
  match stream with
  | .empty => .ok { identity, decoder := qr.emptyDecoder, seen := ∅ }
  | .ur stream => if stream.identity = identity then .ok stream else .error invalid
  | _ => .error invalid

def receiveUr (d : QrDecoder Decoder) (frame : String) : Result Unit × QrDecoder Decoder :=
  let binaryPsbt := decide (d.purpose = .signedPsbt)
  let kind := urType frame
  if ¬ allowedType d.purpose kind then (.error invalid, d)
  else
    match qr.decodeUr frame with
    | none => (.error invalid, d)
    | some (.singlePart, bytes) =>
        match d.stream with
        | .empty =>
            match cborBytes qr bytes with
            | .error e => (.error e, d)
            | .ok payload => finish env d payload binaryPsbt
        | _ => (.error invalid, d)
    | some (.multiPart, bytes) =>
        match (do
          let (identity, sequence) ← urIdentity qr kind bytes
          let stream ← urStream qr d.stream identity
          let hash := qr.sha256 bytes
          require (stream.seen[sequence]?.all (· = hash)) invalid
          -- bounds precede the fountain decoder's allocation
          let decoder ← okOr (qr.receive stream.decoder frame) invalid
          .ok { stream with decoder, seen := stream.seen.insert sequence hash } :
            Result (UrStream Decoder)) with
        | .error e => (.error e, d)
        | .ok stream =>
            let d :=
              { d with
                stream := .ur stream
                progress := { d.progress with
                  totalFragments := some (qr.fragmentCount stream.decoder % 2 ^ 32)
                  resolvedFragments :=
                    (qr.resolvedFragmentCount stream.decoder).getD 0 % 2 ^ 32 } }
            if qr.complete stream.decoder then
              match (do
                let message ← okOr (qr.message stream.decoder) invalid
                let message ← okOr message invalid
                cborBytes qr message : Result Bytes) with
              | .error e => (.error e, d)
              | .ok payload => finish env d payload binaryPsbt
            else (.ok (), d)

/-! ## BBQr frames -/

/-- The value of a digit below 36, in either case. -/
def digit36 (c : Char) : Option Nat :=
  if '0' ≤ c ∧ c ≤ '9' then some (c.toNat - 48)
  else if 'A' ≤ c ∧ c ≤ 'Z' then some (c.toNat - 55)
  else if 'a' ≤ c ∧ c ≤ 'z' then some (c.toNat - 87)
  else none

def digits36 (chars : List Char) : Option Nat :=
  chars.foldlM (fun n c => (digit36 c).map (fun digit => 36 * n + digit)) 0

/-- `usize::from_str_radix(_, 36)` of a text too short to overflow. -/
def fromStrRadix36 : List Char → Option Nat
  | [] => none
  | ['+'] => none
  | '+' :: digits => digits36 digits
  | digits => digits36 digits

def allowedFile (purpose : QrPurpose) (fileType : FileType) : Bool :=
  match purpose with
  | .signedPsbt => fileType = .psbt
  | .descriptor _ => fileType = .unicodeText || fileType = .json

def decodePart (encoding : Encoding) (payload : String) : Option Bytes :=
  match encoding with
  | .hex => qr.decodeHex payload
  | .base32 | .zlib => qr.decodeBase32 payload

/-- The header, the index and the bytes of a BBQr frame. -/
def bbqrPart (purpose : QrPurpose) (frame : String) : Result (Header × Nat × Bytes) := do
  let chars := frame.toList
  require (chars.all (fun c => c.toNat < 128)) invalid
  let header ← okOr (qr.parseHeader frame) invalid
  require (1 ≤ header.numParts ∧ header.numParts ≤ maxFragments) limit
  require (allowedFile purpose header.fileType) invalid
  require (8 ≤ chars.length) invalid
  let index ← okOr (fromStrRadix36 ((chars.drop 6).take 2)) invalid
  require (index < header.numParts) invalid
  let payload := String.ofList (chars.drop 8)
  require (payload ≠ "") invalid
  let decoded ← okOr (decodePart qr header.encoding payload) invalid
  .ok (header, index, decoded)

/-- The data of a set, inflated when its header says so. -/
def unpack (encoding : Encoding) (data : Bytes) : Result Bytes :=
  if encoding = .zlib then inflate qr data else .ok data

/-- The parts by index. -/
def assemble (stream : BbqrStream) : Result Bytes :=
  unpack qr stream.header.encoding (stream.parts.toList.map Prod.snd).flatten

/-- The stream a BBQr frame continues, or starts. -/
def bbqrStream (stream : QrStream Decoder) (header : Header) : Result BbqrStream :=
  match stream with
  | .empty => .ok { header, parts := ∅, bytes := 0 }
  | .bbqr stream => if stream.header = header then .ok stream else .error invalid
  | _ => .error invalid

def receiveBbqr (d : QrDecoder Decoder) (frame : String) : Result Unit × QrDecoder Decoder :=
  match (do
    let (header, index, decoded) ← bbqrPart qr d.purpose frame
    let stream ← bbqrStream d.stream header
    .ok (stream, index, decoded) : Result (BbqrStream × Nat × Bytes)) with
  | .error e => (.error e, d)
  | .ok (stream, index, decoded) =>
      match stream.parts[index]? with
      | some existing => (if existing ≠ decoded then .error invalid else .ok (), d)
      | none =>
          if stream.bytes + decoded.length > maxQrPayloadBytes then (.error limit, d)
          else
            let stream : BbqrStream :=
              { stream with
                parts := stream.parts.insert index decoded
                bytes := stream.bytes + decoded.length }
            let d : QrDecoder Decoder :=
              { d with
                stream := .bbqr stream
                progress := { d.progress with
                  resolvedFragments := stream.parts.size
                  totalFragments := some stream.header.numParts } }
            if stream.parts.size = stream.header.numParts then
              match assemble qr stream with
              | .error e => (.error e, d)
              | .ok data => finish env d data (decide (d.purpose = .signedPsbt))
            else (.ok (), d)

/-! ## The session -/

def isUr (frame : String) : Bool := "ur:".toList.isPrefixOf frame.toLower.toList

def isBbqr (frame : String) : Bool := "B$".toList.isPrefixOf frame.toList

def receiveInner (d : QrDecoder Decoder) (frame : String) (now : Nat) :
    Result Unit × QrDecoder Decoder :=
  if now - d.started > sessionLifetime ∨ d.frames ≥ maxFrames ∨
      frame.utf8ByteSize > maxFrameCharacters then (.error limit, d)
  else
    let d := { d with frames := d.frames + 1, bytes := d.bytes + frame.utf8ByteSize }
    if d.bytes > maxScannedBytes then (.error limit, d)
    else if frame = "" then (.error invalid, d)
    else if isUr frame then receiveUr env qr d frame.toLower
    else if isBbqr frame then receiveBbqr env qr d frame
    else
      match d.stream with
      | .empty => finish env d (asBytes frame) false
      | _ => (.error invalid, d)

/-- `receive`, with the two clock readings it makes. -/
def receive (d : QrDecoder Decoder) (frame : String) (now later : Nat) :
    Result QrProgress × QrDecoder Decoder :=
  if d.progress.phase ≠ .scanning then (.error closed, d)
  else
    match receiveInner env qr d frame now with
    | (.error e, d) =>
        (.error e,
          { d with
            stream := .empty
            progress := { d.progress with phase := .failed } })
    | (.ok (), d) => (.ok (d.expire later).progress, d.expire later)

/-! ## Encoding -/

/-- The parts of an encoder, one after the other. -/
def nextParts : Nat → Encoder → Result (List String)
  | 0, _ => .ok []
  | n + 1, encoder => do
      let (part, encoder) ← okOr (qr.nextPart encoder) invalid
      let parts ← nextParts n encoder
      .ok (part :: parts)

def encodePayload (payload : Bytes) (format : QrFormat) (fileType : FileType) (urType : String) :
    Result (List String) := do
  require (¬ (payload = [] ∨ payload.length > maxQrPayloadBytes)) limit
  let frames ← match format with
    | .ur => do
        let cbor ← okOr (qr.writeBytes payload) invalid
        if cbor.length ≤ 250 then do
          let frame ← okOr (qr.encodeUr cbor urType) invalid
          .ok [frame]
        else do
          let fragmentBytes := max 250 ((cbor.length + (maxFragments - 1)) / maxFragments)
          let encoder ← okOr (qr.newEncoder cbor fragmentBytes urType) invalid
          require (¬ qr.encoderFragmentCount encoder > maxFragments) limit
          -- systematic fragments, then fountain redundancy
          nextParts qr (qr.encoderFragmentCount encoder * 2) encoder
    | .bbqr => okOr (qr.splitParts payload fileType) invalid
  require (¬ frames.any (fun f => f.utf8ByteSize > maxFrameCharacters)) limit
  .ok frames

def encodePsbt (payload : Bytes) (format : QrFormat) : Result (List String) := do
  let psbt ← parseResponse env payload
  let binary := env.serializePsbt psbt
  require (¬ binary.length > maxQrPayloadBytes) limit
  encodePayload qr binary format .psbt "crypto-psbt"

def encodeDescriptor (payload : String) (network : Network) (format : QrFormat) :
    Result (List String) := do
  let _ ← Descriptors.previewImport env payload network
  encodePayload qr (asBytes payload) format .unicodeText "bytes"

end Qr
end Tundra
