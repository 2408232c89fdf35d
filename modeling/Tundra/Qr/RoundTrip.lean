/-
  Tundra.Qr.RoundTrip

  What the encoders write, the decoder reads back, in any order of the frames.
  The specifications of the crates say how their own texts read back; here the
  sizes the encoder chooses meet the limits the decoder checks, up to the
  greatest payload.
-/

import Tundra.Qr.Reassembly

namespace Tundra
namespace Qr

open Checked Relational Signing StoreSelection

variable {State Wallet Scan Decoder Encoder : Type} (env : Env State Wallet Scan)
  (qr : QrCrates Decoder Encoder)

/-! ## What the crates promise -/

/-- `minicbor` byte strings read back, with a header of at most five bytes. -/
structure CborSpec : Prop where
  read_write : ∀ b c, qr.writeBytes b = some c → qr.readBytes c = some (b, [])
  length : ∀ b c, qr.writeBytes b = some c → b.length < 2 ^ 32 →
    b.length < c.length ∧ c.length ≤ b.length + 5

/-- The types that are registered for UR: letters in lower case, digits and hyphens. -/
def IsUrType (type : String) : Prop :=
  ∀ c ∈ type.toList, c.isLower = true ∨ c.isDigit = true ∨ c = '-'

/-- A UR text of a type, in lower case. -/
def UrText (type frame : String) : Prop :=
  ∃ body, frame = "ur:" ++ type ++ "/" ++ body ∧ frame.toLower = frame

/-- The fields of a fountain part. -/
structure PartFields (bytes : Bytes) (sequence fragments length checksum fragmentBytes : Nat) :
    Prop where
  read : ∃ r₀ r₁ r₂ r₃ r₄ data, qr.readArray bytes = some (some 5, r₀) ∧
    qr.readU32 r₀ = some (sequence, r₁) ∧ qr.readU32 r₁ = some (fragments, r₂) ∧
    qr.readU32 r₂ = some (length, r₃) ∧ qr.readU32 r₃ = some (checksum, r₄) ∧
    qr.readBytes r₄ = some (data, []) ∧ data.length = fragmentBytes

/-- `ur`: texts decode to what was encoded.  An encoder cuts its message into
    fragments of one length, its parts are numbered from one, and a decoder fed
    with them in any order recovers the message, at the latest from the
    systematic ones. -/
structure UrSpec : Prop where
  single : ∀ m type frame, IsUrType type → qr.encodeUr m type = some frame →
    UrText type frame ∧ qr.decodeUr frame = some (.singlePart, m)
  parts : ∀ m k type encoder n frames, IsUrType type → m.length < 2 ^ 32 → n < 2 ^ 32 →
    qr.newEncoder m k type = some encoder → nextParts qr n encoder = .ok frames → ∃ fragment checksum, 0 < fragment ∧
      qr.encoderFragmentCount encoder = (m.length + (fragment - 1)) / fragment ∧
      ∀ j frame, frames[j]? = some frame → UrText type frame ∧
        ∃ bytes, qr.decodeUr frame = some (.multiPart, bytes) ∧
          PartFields qr bytes (j + 1) (qr.encoderFragmentCount encoder) m.length checksum fragment
  recovers : ∀ m k type encoder n frames (seen : List String), IsUrType type →
    m.length < 2 ^ 32 → n < 2 ^ 32 → qr.newEncoder m k type = some encoder →
    nextParts qr n encoder = .ok frames → (∀ f ∈ seen, f ∈ frames) →
    ∃ decoder, seen.foldlM qr.receive qr.emptyDecoder = some decoder ∧
      (qr.complete decoder = true → qr.message decoder = some (some m)) ∧
      (qr.encoderFragmentCount encoder ≤ n →
        (∀ f ∈ frames.take (qr.encoderFragmentCount encoder), f ∈ seen) →
        qr.complete decoder = true)

/-- A BBQr text: header, index and the base 32 digits of a part. -/
structure BbqrText (header : Header) (i : Nat) (part : Bytes) (frame : String) : Prop where
  magic : isBbqr frame = true
  ascii : frame.toList.all (fun c => c.toNat < 128) = true
  header : qr.parseHeader frame = some header
  length : 8 < frame.toList.length
  index : fromStrRadix36 ((frame.toList.drop 6).take 2) = some i
  part : qr.decodeBase32 (String.ofList (frame.toList.drop 8)) = some part

/-- `bbqr` and `flate2`: a payload is split in at most `maxFragments` parts; it
    is deflated unless that yields more bytes. -/
structure BbqrSpec : Prop where
  split : ∀ payload fileType frames, payload ≠ [] →
    qr.splitParts payload fileType = some frames →
    ∃ (header : Header) (parts : List Bytes), header.fileType = fileType ∧
      header.numParts = frames.length ∧ parts.length = frames.length ∧
      1 ≤ frames.length ∧ frames.length ≤ maxFragments ∧
      parts.flatten.length ≤ payload.length ∧
      (header.encoding = .zlib ∧ (∀ capacity, payload.length < capacity →
          qr.decompress parts.flatten capacity = some (true, payload, parts.flatten.length)) ∨
        header.encoding = .base32 ∧ parts.flatten = payload) ∧
      ∀ i frame, frames[i]? = some frame →
        ∃ part, parts[i]? = some part ∧ BbqrText qr header i part frame

/-- A PSBT whose serialization is stable under parsing. -/
def Stable (p : Psbt) : Prop :=
  ∃ q, parseResponse env (env.serializePsbt p) = .ok q ∧ env.serializePsbt q = env.serializePsbt p

/-! ## Frames of an encoder -/

/-- The frames that suffice: all BBQr parts, or the systematic UR parts. -/
def systematic (format : QrFormat) (frames : List String) : List String :=
  match format with
  | .bbqr => frames
  | .ur => if frames.length = 1 then frames else frames.take (frames.length / 2)

/-- A purpose takes its frames and hands the payload on as it is. -/
structure Admits (purpose : QrPurpose) (payload : Bytes) (fileType : FileType) (type : String) :
    Prop where
  file : allowedFile purpose fileType = true
  kind : allowedType purpose type = true
  valid : validate env purpose payload (decide (purpose = .signedPsbt)) = .ok payload

/-- The session has the payload. -/
def Received (payload : Bytes) (d : QrDecoder Decoder) : Prop :=
  d.progress.phase = .complete ∧ d.stream = .payload payload

section Decoding

variable {env} {qr} {d d' : QrDecoder Decoder} {purpose : QrPurpose} {start : Nat} {payload : Bytes}
  {fileType : FileType} {type : String} {frames : List String} {sightings : List Sighting}

theorem Received.payload_eq (h : Received payload d) : d.payload = .ok payload := by
  rw [QrDecoder.payload, require_of h.1, ok_bind, h.2]

theorem Received.not_scanning (h : Received payload d) : d.progress.phase ≠ .scanning := by
  rw [h.1]
  exact nofun

/-! ### BBQr -/

theorem BbqrText.isPart {header : Header} {i : Nat} {part : Bytes} {frame : String}
    {parts : List Bytes} (h : BbqrText qr header i part frame) (hpart : parts[i]? = some part)
    (hpos : 1 ≤ header.numParts) (hmax : header.numParts ≤ maxFragments)
    (hcount : parts.length = header.numParts)
    (hfile : allowedFile purpose header.fileType = true) (hencoding : header.encoding ≠ .hex) :
    IsPart qr purpose header parts i frame := by
  refine ⟨h.magic, part, hpart, ?_⟩
  have hindex : i < header.numParts := hcount ▸ (List.getElem?_eq_some_iff.mp hpart).1
  have hpayload : String.ofList (frame.toList.drop 8) ≠ "" := by
    intro hempty
    have hlist := congrArg (fun s => s.toList.length) hempty
    have hlength := h.length
    simp only [String.toList_ofList, List.length_drop] at hlist
    have hzero : "".toList.length = 0 := rfl
    omega
  have hdecoded : decodePart qr header.encoding (String.ofList (frame.toList.drop 8)) =
      some part := by
    cases hcase : header.encoding with
    | hex => exact absurd hcase hencoding
    | base32 => exact h.part
    | zlib => exact h.part
  rw [bbqrPart]
  dsimp only
  rw [require_of h.ascii, ok_bind, h.header, okOr_some, ok_bind, require_of ⟨hpos, hmax⟩, ok_bind,
    require_of hfile, ok_bind, require_of h.length.le, ok_bind, h.index, okOr_some, ok_bind,
    require_of hindex, ok_bind, require_of hpayload, ok_bind, hdecoded, okOr_some, ok_bind]

/-- The frames of the BBQr encoder, read in any order. -/
theorem bbqr_received (hspec : BbqrSpec qr)
    (hne : payload ≠ []) (hframes : qr.splitParts payload fileType = some frames)
    (hsize : payload.length ≤ maxQrPayloadBytes)
    (hadmits : Admits env purpose payload fileType type)
    (hdrawn : ∀ s ∈ sightings, s.frame ∈ frames) (hbudget : InBudget start sightings) :
    ((scan env qr (.new purpose start) sightings).progress.phase = .scanning ∨
      Received payload (scan env qr (.new purpose start) sightings)) ∧
    ((∀ f ∈ frames, ∃ s ∈ sightings, s.frame = f) →
      Received payload (scan env qr (.new purpose start) sightings)) := by
  obtain ⟨header, parts, hfile, hnum, hcount, hpos, hmax, hlength, hencoding, htexts⟩ :=
    hspec.split payload fileType frames hne hframes
  have hnothex : header.encoding ≠ .hex := by
    rcases hencoding with ⟨h, -⟩ | ⟨h, -⟩ <;> rw [h] <;> exact nofun
  have hparts : ∀ i frame, frames[i]? = some frame → IsPart qr purpose header parts i frame := by
    intro i frame hframe
    obtain ⟨part, hpart, htext⟩ := htexts i frame hframe
    exact htext.isPart hpart (hnum ▸ hpos) (hnum ▸ hmax) (hcount.trans hnum.symm)
      (hfile ▸ hadmits.file) hnothex
  have hdecoded : reassembled env qr purpose header parts = .ok payload := by
    have hdata : unpack qr header.encoding parts.flatten = .ok payload := by
      rcases hencoding with ⟨hz, hinflate⟩ | ⟨hb, hsame⟩
      · rw [unpack, if_pos hz, inflate, hinflate _ (Nat.lt_succ_of_le hsize), okOr_some, ok_bind]
        dsimp only
        rw [require_of hsize, ok_bind, require_of ⟨rfl, rfl⟩, ok_bind]
      · rw [unpack, if_neg (by rw [hb]; exact nofun), hsame]
    rw [reassembled, hdata, ok_bind, require_of (not_lt.mpr hsize), ok_bind, hadmits.valid]
  have hsum : (parts.map List.length).sum ≤ maxQrPayloadBytes := by
    rw [← List.length_flatten]
    exact hlength.trans hsize
  have hall : ∀ s ∈ sightings, ∃ i, IsPart qr purpose header parts i s.frame := by
    intro s hs
    obtain ⟨i, hi⟩ := List.mem_iff_getElem?.mp (hdrawn s hs)
    exact ⟨i, hparts i s.frame hi⟩
  obtain ⟨-, -, hscan, hdone, -⟩ := reassembly env qr (hcount.trans hnum.symm) (hnum ▸ hpos) hsum
    hall hbudget
  have hreceived : ¬ Missing parts (seenIndices qr purpose sightings) →
      Received payload (scan env qr (.new purpose start) sightings) := by
    intro hmiss
    have hattempted := hdone hmiss
    rw [Attempted, hdecoded] at hattempted
    exact ⟨congrArg QrProgress.phase hattempted.2, hattempted.1⟩
  refine ⟨?_, fun hcovers => hreceived ?_⟩
  · by_cases hmiss : Missing parts (seenIndices qr purpose sightings)
    · exact .inl (hscan hmiss).1
    · exact .inr (hreceived hmiss)
  · rintro ⟨i, hi, hnot⟩
    obtain ⟨s, hs, hframe⟩ := hcovers frames[i] (List.getElem_mem (hcount ▸ hi))
    have hpart := hparts i frames[i] (List.getElem?_eq_getElem (hcount ▸ hi))
    refine hnot (List.mem_toFinset.mpr (List.mem_filterMap.mpr ⟨s, hs, ?_⟩))
    rw [hframe]
    exact hpart.index

/-! ### UR -/

theorem UrText.isUr {frame : String} (h : UrText type frame) : isUr frame = true := by
  obtain ⟨body, hframe, hlower⟩ := h
  rw [Qr.isUr, hlower, hframe, List.isPrefixOf_iff_prefix, String.append_assoc,
    String.append_assoc, String.toList_append]
  exact List.prefix_append ..

theorem UrText.type_eq {frame : String} (h : UrText type frame) (htype : '/' ∉ type.toList) :
    urType frame = type := by
  obtain ⟨body, hframe, -⟩ := h
  have hchars : frame.toList.drop 3 = type.toList ++ '/' :: body.toList := by
    rw [hframe, String.toList_append, String.toList_append, String.toList_append,
      List.append_assoc, List.append_assoc]
    rfl
  have hplain : ∀ c ∈ type.toList, decide (c ≠ '/') = true := by
    intro c hc
    exact decide_eq_true fun heq => htype (heq ▸ hc)
  rw [urType, hchars, List.takeWhile_append_of_pos hplain, List.takeWhile_cons_of_neg (by simp),
    List.append_nil, String.ofList_toList]

theorem IsUrType.plain (h : IsUrType type) : '/' ∉ type.toList := by
  intro hslash
  rcases h '/' hslash with hlower | hdigit | hhyphen
  · exact absurd hlower (by decide)
  · exact absurd hdigit (by decide)
  · exact absurd hhyphen (by decide)

/-- A UR frame within the budget is looked into as it is. -/
theorem receiveInner_ur {frame : String} {now : Nat} (hbudget : WithinBudget d frame now)
    (htext : UrText type frame) : receiveInner env qr d frame now =
      receiveUr env qr
        { d with frames := d.frames + 1, bytes := d.bytes + frame.utf8ByteSize } frame := by
  obtain ⟨-, htime, hframes, hsize, hbytes⟩ := hbudget
  obtain ⟨body, hframe, hlower⟩ := id htext
  have hne : frame ≠ "" := by
    intro hempty
    rw [hempty] at hframe
    have hlist := congrArg String.toList hframe
    simp only [String.toList_append, List.append_assoc] at hlist
    exact List.cons_ne_nil _ _ hlist.symm
  have hlimits : ¬ (now - d.started > sessionLifetime ∨ d.frames ≥ maxFrames ∨
      frame.utf8ByteSize > maxFrameCharacters) := by omega
  have hscanned : ¬ d.bytes + frame.utf8ByteSize > maxScannedBytes := by omega
  rw [receiveInner, if_neg hlimits]
  dsimp only
  rw [if_neg hscanned, if_neg hne, if_pos htext.isUr, hlower]

/-- The fragments of a message cover it, and it needs the last of them. -/
theorem fragments_cover {length fragment : Nat} (hfragment : 0 < fragment) (hlength : 0 < length) :
    let count := (length + (fragment - 1)) / fragment
    1 ≤ count ∧ length ≤ count * fragment ∧ (count - 1) * fragment < length := by
  intro count
  have hbelow : count * fragment ≤ length + (fragment - 1) := Nat.div_mul_le_self ..
  have habove : length + (fragment - 1) < (count + 1) * fragment := by
    rw [Nat.mul_comm]
    exact Nat.lt_mul_div_succ _ hfragment
  have hone : 1 ≤ count := (Nat.one_le_div_iff hfragment).mpr (by omega)
  rw [Nat.add_mul, Nat.one_mul] at habove
  refine ⟨hone, by omega, ?_⟩
  rw [Nat.sub_mul, Nat.one_mul]
  omega

/-- A part whose numbers are in order is identified. -/
theorem urIdentity_of_fields {bytes : Bytes} {sequence count length checksum fragment : Nat}
    (h : PartFields qr bytes (sequence + 1) count length checksum fragment)
    (hfragment : 0 < fragment) (hcount : 1 ≤ count ∧ count ≤ maxFragments)
    (hmax : length ≤ maxQrPayloadBytes + 5)
    (hcover : length ≤ count * fragment ∧ (count - 1) * fragment < length) :
    urIdentity qr type bytes =
      .ok ({ kind := type, fragments := count, length, checksum, fragmentBytes := fragment },
        sequence + 1) := by
  obtain ⟨r₀, r₁, r₂, r₃, r₄, data, h₀, h₁, h₂, h₃, h₄, h₅, hdata⟩ := h.read
  have hshape : ¬ (sequence + 1 = 0 ∨ ([] : Bytes) ≠ [] ∨ data.length = 0) := by
    rw [hdata]
    simp
    omega
  have hsizes : ¬ (length ≤ (count - 1) * data.length ∨ length > count * data.length) := by
    rw [hdata]
    omega
  rw [urIdentity, h₀, okOr_some, ok_bind]
  dsimp only
  rw [require_of rfl, ok_bind, h₁, okOr_some, ok_bind]
  dsimp only
  rw [h₂, okOr_some, ok_bind]
  dsimp only
  rw [h₃, okOr_some, ok_bind]
  dsimp only
  rw [h₄, okOr_some, ok_bind]
  dsimp only
  rw [h₅, okOr_some, ok_bind]
  dsimp only
  rw [require_of hshape, ok_bind, require_of ⟨hcount, not_lt.mpr hmax⟩, ok_bind,
    require_of hsizes, ok_bind, hdata]

/-- The frames of a fountain encoder, and the numbers they carry. -/
structure Fountain (qr : QrCrates Decoder Encoder) (type : String) (m : Bytes)
    (frames : List String) (identity : UrIdentity) : Prop where
  systematic : 1 ≤ identity.fragments ∧ identity.fragments ≤ frames.length
  frame : ∀ (j : Nat) (frame : String), frames[j]? = some frame → UrText type frame ∧
    ∃ bytes, qr.decodeUr frame = some (.multiPart, bytes) ∧
      urIdentity qr type bytes = .ok (identity, j + 1)
  recovers : ∀ seen : List String, (∀ f ∈ seen, f ∈ frames) →
    ∃ decoder, seen.foldlM qr.receive qr.emptyDecoder = some decoder ∧
      (qr.complete decoder = true → qr.message decoder = some (some m)) ∧
      ((∀ f ∈ frames.take identity.fragments, f ∈ seen) → qr.complete decoder = true)

/-- A session that reads the frames of a fountain encoder. -/
structure Recovering (qr : QrCrates Decoder Encoder) (purpose : QrPurpose) (start : Nat)
    (texts : List String) (identity : UrIdentity) (done : List Sighting)
    (d : QrDecoder Decoder) : Prop extends Scanning purpose start done d where
  stream : ∃ stream, urStream qr d.stream identity = .ok stream ∧
    (done.map Sighting.frame).foldlM qr.receive qr.emptyDecoder = some stream.decoder ∧
    (done = [] ∨ qr.complete stream.decoder = false) ∧
    ∀ (sequence : Nat) (hash : Bytes), stream.seen[sequence]? = some hash →
      ∃ j frame bytes, sequence = j + 1 ∧ texts[j]? = some frame ∧
        qr.decodeUr frame = some (.multiPart, bytes) ∧ hash = qr.sha256 bytes

variable {identity : UrIdentity} {m : Bytes} {done : List Sighting} {s : Sighting}

theorem recovering_new :
    Recovering qr purpose start frames identity [] (.new purpose start : QrDecoder Decoder) where
  toScanning := scanning_new
  stream := ⟨_, rfl, rfl, .inl rfl, fun sequence hash h => by
    rw [Std.ExtTreeMap.getElem?_empty] at h
    cases h⟩

theorem urStream_again {stream : QrStream Decoder} {stream' : UrStream Decoder}
    (h : urStream qr stream identity = .ok stream') : stream'.identity = identity := by
  cases stream with
  | empty => cases h; rfl
  | ur old =>
      rw [urStream] at h
      split_ifs at h with hsame
      cases h
      exact hsame
  | bbqr old => cases h
  | payload bytes => cases h

/-- A payload that the purpose takes completes the session it is found in. -/
theorem receive_finish {e : QrDecoder Decoder} {bytes : Bytes} {frame : String} {now later : Nat}
    {binaryPsbt : Bool} (hphase : d.progress.phase = .scanning)
    (hinner : receiveInner env qr d frame now = finish env e payload binaryPsbt)
    (hsize : payload.length ≤ maxQrPayloadBytes)
    (hvalid : validate env e.purpose payload binaryPsbt = .ok bytes) :
    Received bytes (receive env qr d frame now later).2 := by
  rw [finish, if_neg (not_lt.mpr hsize), hvalid] at hinner
  dsimp only at hinner
  -- a complete session does not expire
  have hexpire : ∀ d : QrDecoder Decoder, d.progress.phase = .complete → d.expire later = d := by
    intro d hdone
    refine if_neg fun hexpired => ?_
    rw [hdone] at hexpired
    exact absurd hexpired.1 (by decide)
  rw [receive_of_ok hphase hinner (hexpire _ rfl)]
  exact ⟨rfl, rfl⟩

/-- The session with a part that its fountain decoder took. -/
def withPart (qr : QrCrates Decoder Encoder) (d : QrDecoder Decoder) (stream : UrStream Decoder) :
    QrDecoder Decoder :=
  { d with
    stream := .ur stream
    progress := { d.progress with
      totalFragments := some (qr.fragmentCount stream.decoder % 2 ^ 32)
      resolvedFragments := (qr.resolvedFragmentCount stream.decoder).getD 0 % 2 ^ 32 } }

/-- A message in one part opens and completes a session. -/
theorem receiveUr_single {frame : String} {bytes : Bytes}
    (hkind : allowedType d.purpose (urType frame) = true) (hempty : d.stream = .empty)
    (hdecode : qr.decodeUr frame = some (.singlePart, bytes))
    (hcbor : cborBytes qr bytes = .ok payload) :
    receiveUr env qr d frame = finish env d payload (decide (d.purpose = .signedPsbt)) := by
  rw [receiveUr]
  dsimp only
  rw [if_neg (not_not.mpr hkind), hdecode]
  dsimp only
  rw [hempty]
  dsimp only
  rw [hcbor]

/-- A part of the message that a stream is made of. -/
theorem receiveUr_part {frame : String} {bytes : Bytes} {sequence : Nat} {stream : UrStream Decoder}
    {decoder : Decoder} (hkind : allowedType d.purpose (urType frame) = true)
    (hdecode : qr.decodeUr frame = some (.multiPart, bytes))
    (hidentity : urIdentity qr (urType frame) bytes = .ok (identity, sequence))
    (hstream : urStream qr d.stream identity = .ok stream)
    (hhash : stream.seen[sequence]?.all (fun h => decide (h = qr.sha256 bytes)) = true)
    (hreceived : qr.receive stream.decoder frame = some decoder) :
    receiveUr env qr d frame =
      (let d := withPart qr d
        { stream with decoder, seen := stream.seen.insert sequence (qr.sha256 bytes) }
      if qr.complete decoder then
        match (do
          let message ← okOr (qr.message decoder) invalid
          let message ← okOr message invalid
          cborBytes qr message : Result Bytes) with
        | .error e => (.error e, d)
        | .ok payload => finish env d payload (decide (d.purpose = .signedPsbt))
      else (.ok (), d)) := by
  rw [receiveUr]
  dsimp only
  rw [if_neg (not_not.mpr hkind), hdecode]
  dsimp only
  rw [hidentity, ok_bind]
  dsimp only
  rw [hstream, ok_bind, require_of hhash, ok_bind, hreceived, okOr_some, ok_bind]
  rfl

/-- A message of a type that a purpose takes, and the payload in it. -/
structure Message (env : Env State Wallet Scan) (qr : QrCrates Decoder Encoder)
    (purpose : QrPurpose) (type : String) (m payload : Bytes) : Prop where
  urType : IsUrType type
  kind : allowedType purpose type = true
  cbor : cborBytes qr m = .ok payload
  size : payload.length ≤ maxQrPayloadBytes
  valid : validate env purpose payload (decide (purpose = .signedPsbt)) = .ok payload

variable (env) in
/-- One more frame of the encoder: the session goes on, or has the payload. -/
theorem Recovering.next (hfountain : Fountain qr type m frames identity)
    (hmessage : Message env qr purpose type m payload)
    (h : Recovering qr purpose start frames identity done d)
    (hdone : ∀ s ∈ done, s.frame ∈ frames) (hs : s.frame ∈ frames)
    (hbudget : InBudget start (done ++ [s])) :
    Recovering qr purpose start frames identity (done ++ [s])
        (receive env qr d s.frame s.now s.later).2 ∨
      Received payload (receive env qr d s.frame s.now s.later).2 := by
  obtain ⟨j, hj⟩ := List.mem_iff_getElem?.mp hs
  obtain ⟨htext, bytes, hdecode, hidentity⟩ := hfountain.frame j s.frame hj
  obtain ⟨stream, hstream, hfold, -, hseen⟩ := h.stream
  have hlast : ∀ f ∈ (done ++ [s]).map Sighting.frame, f ∈ frames := by
    intro f hf
    rw [List.map_append, List.map_singleton] at hf
    rcases List.mem_append.mp hf with hold | hnew
    · obtain ⟨s', hs', rfl⟩ := List.mem_map.mp hold
      exact hdone s' hs'
    · rw [List.mem_singleton.mp hnew]
      exact hs
  obtain ⟨decoder, hdecoder, hrecovered, -⟩ := hfountain.recovers _ hlast
  have hreceived : qr.receive stream.decoder s.frame = some decoder := by
    rw [List.map_append, List.foldlM_append, hfold, List.map_singleton] at hdecoder
    simpa using hdecoder
  -- a number that has come before came with the same part
  have hhash : stream.seen[j + 1]?.all (fun h => decide (h = qr.sha256 bytes)) = true := by
    cases hold : stream.seen[j + 1]? with
    | none => rfl
    | some hash =>
        obtain ⟨j', frame', bytes', hj', hframe', hdecode', rfl⟩ := hseen (j + 1) hash hold
        obtain rfl : j' = j := by omega
        rw [hj, Option.some.injEq] at hframe'
        subst hframe'
        rw [hdecode, Option.some.injEq, Prod.mk.injEq] at hdecode'
        rw [hdecode'.2]
        exact decide_eq_true rfl
  let next : UrStream Decoder :=
    { stream with decoder, seen := stream.seen.insert (j + 1) (qr.sha256 bytes) }
  let d₁ : QrDecoder Decoder :=
    { d with frames := d.frames + 1, bytes := d.bytes + s.frame.utf8ByteSize }
  have htype : urType s.frame = type := htext.type_eq hmessage.urType.plain
  have hpurpose : allowedType d₁.purpose (urType s.frame) = true := by
    rw [htype]
    exact h.purpose ▸ hmessage.kind
  have hinner : receiveInner env qr d s.frame s.now = receiveUr env qr d₁ s.frame :=
    receiveInner_ur (h.toScanning.withinBudget hbudget) htext
  rw [receiveUr_part hpurpose hdecode (htype ▸ hidentity) hstream hhash hreceived]
    at hinner
  dsimp only at hinner
  cases hcomplete : qr.complete decoder with
  | true =>
      right
      rw [if_pos hcomplete, hrecovered hcomplete, okOr_some, ok_bind, okOr_some, ok_bind,
        hmessage.cbor] at hinner
      refine receive_finish h.phase hinner hmessage.size ?_
      show validate env d.purpose payload (decide (d.purpose = .signedPsbt)) = .ok payload
      rw [h.purpose, hmessage.valid]
  | false =>
      left
      rw [if_neg (by rw [hcomplete]; exact Bool.false_ne_true)] at hinner
      rw [receive_of_ok h.phase hinner (expire_later h.started hbudget)]
      refine ⟨h.toScanning.next s rfl rfl rfl rfl h.phase, next, ?_, hdecoder, .inr hcomplete, ?_⟩
      · exact if_pos (urStream_again hstream)
      · intro sequence hash hrow
        rw [Table.get_insert] at hrow
        split_ifs at hrow with hnew
        · subst hnew
          exact ⟨j, s.frame, bytes, rfl, hj, hdecode, (Option.some.inj hrow).symm⟩
        · exact hseen sequence hash hrow

/-- After any frames of the encoder the session goes on, or has the payload. -/
theorem Recovering.scan (hfountain : Fountain qr type m frames identity)
    (hmessage : Message env qr purpose type m payload)
    (h : Recovering qr purpose start frames identity done d)
    (hdone : ∀ s ∈ done, s.frame ∈ frames) (hrest : ∀ s ∈ sightings, s.frame ∈ frames)
    (hbudget : InBudget start (done ++ sightings)) :
    Recovering qr purpose start frames identity (done ++ sightings)
        (Qr.scan env qr d sightings) ∨
      Received payload (Qr.scan env qr d sightings) := by
  induction sightings generalizing d done with
  | nil =>
      rw [List.append_nil]
      exact .inl h
  | cons s rest ih =>
      obtain ⟨hs, hrest⟩ := List.forall_mem_cons.mp hrest
      have hsplit : done ++ s :: rest = (done ++ [s]) ++ rest := by simp
      rw [hsplit] at hbudget ⊢
      show Recovering _ _ _ _ _ _
          (Qr.scan env qr (receive env qr d s.frame s.now s.later).2 rest) ∨
        Received _ (Qr.scan env qr (receive env qr d s.frame s.now s.later).2 rest)
      rcases h.next env hfountain hmessage hdone hs hbudget.of_append with hnext | hgot
      · refine ih hnext (fun s' hs' => ?_) hrest hbudget
        rcases List.mem_append.mp hs' with hold | hnew
        · exact hdone s' hold
        · rw [List.mem_singleton.mp hnew]
          exact hs
      · rw [scan_closed hgot.not_scanning]
        exact .inr hgot

/-- The frames of a fountain encoder, read in any order. -/
theorem fountain_received (hfountain : Fountain qr type m frames identity)
    (hmessage : Message env qr purpose type m payload)
    (hdrawn : ∀ s ∈ sightings, s.frame ∈ frames) (hbudget : InBudget start sightings) :
    ((scan env qr (.new purpose start) sightings).progress.phase = .scanning ∨
      Received payload (scan env qr (.new purpose start) sightings)) ∧
    ((∀ f ∈ frames.take identity.fragments, ∃ s ∈ sightings, s.frame = f) →
      Received payload (scan env qr (.new purpose start) sightings)) := by
  have hnew : Recovering qr purpose start frames identity [] (.new purpose start) :=
    recovering_new
  have hrun := hnew.scan hfountain hmessage (List.forall_mem_nil _) hdrawn hbudget
  rw [List.nil_append] at hrun
  refine ⟨hrun.imp_left fun h => h.phase, fun hcovers => ?_⟩
  rcases hrun with h | hgot
  · obtain ⟨stream, -, hfold, hopen, -⟩ := h.stream
    have hall : ∀ f ∈ sightings.map Sighting.frame, f ∈ frames := by
      intro f hf
      obtain ⟨s, hs, rfl⟩ := List.mem_map.mp hf
      exact hdrawn s hs
    obtain ⟨decoder, hdecoder, -, hcomplete⟩ := hfountain.recovers _ hall
    rw [hfold, Option.some.injEq] at hdecoder
    have hdone : qr.complete stream.decoder = true := by
      rw [hdecoder]
      refine hcomplete fun f hf => ?_
      obtain ⟨s, hs, rfl⟩ := hcovers f hf
      exact List.mem_map_of_mem hs
    -- there is a systematic part, so some frame has come
    rcases hopen with rfl | hnot
    · have hpos : 0 < (frames.take identity.fragments).length := by
        rw [List.length_take]
        have hsome := hfountain.systematic
        omega
      obtain ⟨s, hs, -⟩ := hcovers _ (List.getElem_mem hpos)
      cases hs
    · rw [hnot] at hdone
      cases hdone
  · exact hgot

variable (env) in
/-- The frame of a message in one part. -/
theorem single_received {frame : String} (hmessage : Message env qr purpose type m payload)
    (htext : UrText type frame) (hdecode : qr.decodeUr frame = some (.singlePart, m))
    (hdrawn : ∀ s ∈ sightings, s.frame = frame) (hbudget : InBudget start sightings) :
    sightings = [] ∨ Received payload (scan env qr (.new purpose start) sightings) := by
  rcases sightings with - | ⟨s, rest⟩
  · exact .inl rfl
  · right
    have hframe : s.frame = frame := hdrawn s List.mem_cons_self
    have hbudget' : InBudget start ([s] ++ rest) := hbudget
    have hnew : Scanning purpose start [] (.new purpose start : QrDecoder Decoder) := scanning_new
    have htype : urType s.frame = type := by rw [hframe, htext.type_eq hmessage.urType.plain]
    let d₁ : QrDecoder Decoder :=
      { QrDecoder.new purpose start with frames := 0 + 1, bytes := 0 + s.frame.utf8ByteSize }
    have hinner : receiveInner env qr (.new purpose start) s.frame s.now =
        receiveUr env qr d₁ s.frame :=
      receiveInner_ur (hnew.withinBudget hbudget'.of_append) (hframe.symm ▸ htext)
    have hpurpose : allowedType d₁.purpose (urType s.frame) = true := htype ▸ hmessage.kind
    rw [receiveUr_single hpurpose rfl (hframe ▸ hdecode) hmessage.cbor] at hinner
    have hgot : Received payload (receive env qr (.new purpose start) s.frame s.now s.later).2 :=
      receive_finish hnew.phase hinner hmessage.size hmessage.valid
    show Received payload
      (scan env qr (receive env qr (.new purpose start) s.frame s.now s.later).2 rest)
    rw [scan_closed hgot.not_scanning]
    exact hgot

/-! ### The encoder's frames -/

theorem nextParts_length {n : Nat} {encoder : Encoder} (h : nextParts qr n encoder = .ok frames) :
    frames.length = n := by
  induction n generalizing encoder frames with
  | zero =>
      cases h
      rfl
  | succ n ih =>
      simp only [nextParts, bind_eq_ok, Prod.exists, Except.ok.injEq] at h
      obtain ⟨part, next, -, parts, hparts, rfl⟩ := h
      rw [List.length_cons, ih hparts]

/-- What the encoder takes the fragments from, and how many it makes. -/
theorem fountain_of_parts (hspec : UrSpec qr) (htype : IsUrType type) {k : Nat} {encoder : Encoder}
    (hencoder : qr.newEncoder m k type = some encoder)
    (hmost : qr.encoderFragmentCount encoder ≤ maxFragments)
    (hframes : nextParts qr (qr.encoderFragmentCount encoder * 2) encoder = .ok frames)
    (hpos : 0 < m.length) (hmax : m.length ≤ maxQrPayloadBytes + 5) :
    ∃ identity, Fountain qr type m frames identity ∧ frames.length = identity.fragments * 2 := by
  have hlong : m.length < 2 ^ 32 := by
    rw [maxQrPayloadBytes] at hmax
    omega
  have hmany : qr.encoderFragmentCount encoder * 2 < 2 ^ 32 := by
    rw [maxFragments] at hmost
    omega
  obtain ⟨fragment, checksum, hfragment, hcount, hparts⟩ := hspec.parts m k type encoder _ frames
    htype hlong hmany hencoder hframes
  have hcover := fragments_cover hfragment hpos
  rw [← hcount] at hcover
  dsimp only at hcover
  obtain ⟨hone, hcover⟩ := hcover
  have hlength := nextParts_length hframes
  refine ⟨{ kind := type, fragments := qr.encoderFragmentCount encoder, length := m.length,
            checksum, fragmentBytes := fragment }, ⟨⟨hone, ?_⟩, ?_, ?_⟩, hlength⟩
  · show qr.encoderFragmentCount encoder ≤ frames.length
    omega
  · intro j frame hframe
    obtain ⟨htext, bytes, hdecode, hfields⟩ := hparts j frame hframe
    exact ⟨htext, bytes, hdecode, urIdentity_of_fields hfields hfragment ⟨hone, hmost⟩ hmax hcover⟩
  · intro seen hseen
    obtain ⟨decoder, hdecoder, hmessage, hcomplete⟩ := hspec.recovers m k type encoder _ frames seen
      htype hlong hmany hencoder hframes hseen
    exact ⟨decoder, hdecoder, hmessage, hcomplete (by omega)⟩

/-- The frames of a payload, read in any order. -/
theorem encodePayload_received (hcbor : CborSpec qr) (hur : UrSpec qr) (hbbqr : BbqrSpec qr)
    {format : QrFormat} (h : encodePayload qr payload format fileType type = .ok frames)
    (hadmits : Admits env purpose payload fileType type) (htype : IsUrType type)
    (hdrawn : ∀ s ∈ sightings, s.frame ∈ frames) (hsession : SessionBudget start sightings) :
    ((scan env qr (.new purpose start) sightings).progress.phase = .scanning ∨
      Received payload (scan env qr (.new purpose start) sightings)) ∧
    ((∀ f ∈ systematic format frames, ∃ s ∈ sightings, s.frame = f) →
      Received payload (scan env qr (.new purpose start) sightings)) := by
  rw [encodePayload] at h
  obtain ⟨_, hchecked, h⟩ := bind_eq_ok.mp h
  obtain ⟨hne, hsize⟩ := not_or.mp (require_eq_ok.mp hchecked)
  replace hsize : payload.length ≤ maxQrPayloadBytes := not_lt.mp hsize
  have hbudget : ¬ frames.any (fun f => decide (f.utf8ByteSize > maxFrameCharacters)) = true →
      InBudget start sightings := by
    refine fun hshort => ⟨hsession, fun s hs => not_lt.mp fun hlong => hshort ?_⟩
    exact List.any_eq_true.mpr ⟨s.frame, hdrawn s hs, decide_eq_true hlong⟩
  cases format with
  | bbqr =>
      simp only [bind_eq_ok, okOr_eq_ok, require_eq_ok, exists_unit, Except.ok.injEq] at h
      obtain ⟨frames, hframes, hshort, rfl⟩ := h
      exact bbqr_received hbbqr hne hframes hsize hadmits hdrawn (hbudget hshort)
  | ur =>
      obtain ⟨cbor, hwrite, h⟩ := bind_eq_ok.mp h
      rw [okOr_eq_ok] at hwrite
      obtain ⟨hlonger, hheader⟩ := hcbor.length payload cbor hwrite (by
        rw [maxQrPayloadBytes] at hsize
        omega)
      have hmessage : Message env qr purpose type cbor payload := by
        refine ⟨htype, hadmits.kind, ?_, hsize, hadmits.valid⟩
        rw [cborBytes, hcbor.read_write payload cbor hwrite, okOr_some, ok_bind]
        dsimp only
        rw [require_of ⟨rfl, hsize⟩, ok_bind]
      split_ifs at h with hsmall
      · simp only [bind_eq_ok, okOr_eq_ok, ok_bind, require_eq_ok, exists_unit,
          Except.ok.injEq] at h
        obtain ⟨frame, hframe, hshort, rfl⟩ := h
        obtain ⟨htext, hdecode⟩ := hur.single cbor type frame htype hframe
        have honly : ∀ s ∈ sightings, s.frame = frame := fun s hs =>
          List.mem_singleton.mp (hdrawn s hs)
        have hgot := single_received env hmessage htext hdecode honly (hbudget hshort)
        refine ⟨hgot.imp_left ?_, fun hcovers => hgot.resolve_left ?_⟩
        · rintro rfl
          rfl
        rintro rfl
        obtain ⟨s, hs, -⟩ := hcovers frame (by rw [systematic]; exact List.mem_singleton_self _)
        cases hs
      · simp only [bind_eq_ok, okOr_eq_ok, require_eq_ok, exists_unit, Except.ok.injEq] at h
        obtain ⟨encoder, hencoder, hmost, frames, hframes, hshort, rfl⟩ := h
        obtain ⟨identity, hfountain, hlength⟩ := fountain_of_parts hur htype hencoder (not_lt.mp hmost)
          hframes (by omega) (by omega)
        have hsystematic : systematic .ur frames = frames.take identity.fragments := by
          have hsome := hfountain.systematic
          rw [systematic, if_neg (by omega), hlength, Nat.mul_div_cancel _ (by omega)]
        rw [hsystematic]
        exact fountain_received hfountain hmessage hdrawn (hbudget hshort)

end Decoding

/-! ## Round trips -/

/-- A fresh session reads a payload from some frames: no frame fails it, and it
    is complete at the latest once the systematic ones have come. -/
def Recovers (purpose : QrPurpose) (format : QrFormat) (payload : Bytes) (frames : List String) :
    Prop :=
  ∀ start sightings, (∀ s ∈ sightings, s.frame ∈ frames) → SessionBudget start sightings →
    let d := scan env qr (.new purpose start) sightings
    (d.progress.phase = .scanning ∨ d.progress.phase = .complete ∧ d.payload = .ok payload) ∧
    ((∀ f ∈ systematic format frames, ∃ s ∈ sightings, s.frame = f) →
      d.progress.phase = .complete ∧ d.payload = .ok payload)

section RoundTrips

variable {env} {qr} {purpose : QrPurpose} {payload : Bytes} {fileType : FileType} {type : String}
  {frames : List String} {format : QrFormat}

theorem recovers_of_encode (hcbor : CborSpec qr) (hur : UrSpec qr) (hbbqr : BbqrSpec qr)
    (h : encodePayload qr payload format fileType type = .ok frames)
    (hadmits : Admits env purpose payload fileType type) (htype : IsUrType type) :
    Recovers env qr purpose format payload frames := by
  intro start sightings hdrawn hsession d
  obtain ⟨hgoes, hends⟩ := encodePayload_received hcbor hur hbbqr h hadmits htype hdrawn hsession
  have hread : Received payload d → d.progress.phase = .complete ∧ d.payload = .ok payload :=
    fun hgot => ⟨hgot.1, hgot.payload_eq⟩
  exact ⟨hgoes.imp_right hread, fun hcovers => hread (hends hcovers)⟩

/-- A serialized PSBT is a payload of a signing session. -/
theorem admits_psbt {p : Psbt} (hstable : Stable env p) :
    Admits env .signedPsbt (env.serializePsbt p) .psbt "crypto-psbt" := by
  obtain ⟨q, hq, hsame⟩ := hstable
  have hmagic : psbtMagic <+: env.serializePsbt p := List.prefix_append _ _
  refine ⟨rfl, rfl, ?_⟩
  rw [validate, require_of fun _ => hmagic, ok_bind, orError_eq_ok.mpr hq, ok_bind, hsame]

/-- A descriptor text is a payload of a session for its network. -/
theorem admits_descriptor {text : String} {network : Network}
    {preview : ImportPreview} (h : Descriptors.previewImport env text network = .ok preview) :
    Admits env (.descriptor network) (asBytes text) .unicodeText "bytes" := by
  refine ⟨rfl, rfl, ?_⟩
  rw [validate, fromUTF8_asBytes, okOr_some, ok_bind, orError_eq_ok.mpr h, ok_bind]

theorem urType_psbt : IsUrType "crypto-psbt" := by
  unfold IsUrType
  exact List.forall_iff_forall_mem.mp (by decide)

theorem urType_bytes : IsUrType "bytes" := by
  unfold IsUrType
  exact List.forall_iff_forall_mem.mp (by decide)

end RoundTrips

end Qr
end Tundra
